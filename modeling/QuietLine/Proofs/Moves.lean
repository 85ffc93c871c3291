/-
Operations as moves.

For what follows most of an operation does not matter: whether it opens a loan,
closes one, files a mandate or leaves loans and mandates as they are (`Quiet`).
Every operation but `AcceptQuote` is a sequence of such moves, one for each loan
in the case of `RiskTick`, and `AcceptQuote` is an opening.  Two invariants that
need no assumption are derived here: what is filed where (`Wellformed`), and on
what terms.
-/
import Mathlib.Logic.Relation
import QuietLine.Proofs.Steps

namespace QuietLine

open Outcome MapSum MapRel Std

/-! ### The moves -/

/-- The owner and the loan of every account, unchanged. -/
def SameHolders (s s' : State) : Prop :=
  ∀ key, (s'.accountAt key).owner = (s.accountAt key).owner ∧
    (s'.accountAt key).loanID = (s.accountAt key).loanID

/-- No mandate is filed, no loan is opened or closed. -/
structure Quiet (s s' : State) : Prop where
  accounts : SameHolders s s'
  mandates : Pointwise (fun _ m m' => m.SameOffer m') s.mandates s'.mandates
  loans : Pointwise (fun _ l l' => l.SameTerms l' ∧ l'.isOpen = l.isOpen) s.loans s'.loans

/-- A mandate is filed. -/
structure Offering (s s' : State) (id : String) (m : Mandate) : Prop where
  fresh : s.mandates[id]? = none
  filed : m.id = id
  lender : ∃ owner, m.lender = (s.account owner).owner
  accounts : SameHolders s s'
  mandates : s'.mandates = s.mandates.insert id m
  loans : s'.loans = s.loans

/-- The loan filed under `id` is closed, and the account of `owner` points at no loan. -/
structure Closing (s s' : State) (owner id : String) (l : Loan) : Prop where
  found : s.loans[id]? = some l
  /-- A borrower closes the loan of its account; a liquidation closes an open loan. -/
  which : (s.account owner).loanID = id ∨ (l.isOpen = true ∧ owner = l.borrower)
  owners : ∀ key, (s'.accountAt key).owner = (s.accountAt key).owner
  loanIDs : ∀ key, (s'.accountAt key).loanID =
    if toLower owner = key then "" else (s.accountAt key).loanID
  mandates : Pointwise (fun _ m m' => m.SameOffer m') s.mandates s'.mandates
  loans : ∃ l', l.SameTerms l' ∧ l'.isOpen = false ∧ s'.loans = s.loans.insert id l'

/-- The loan `l` is opened under `id` for `owner`, on the terms of an accepted quote. -/
structure Opening (s s' : State) (owner id : String) (l : Loan) : Prop where
  idle : (s.account owner).loanID = ""
  filed : l.id = id
  borrower : l.borrower = (s.account owner).owner
  isOpen : l.isOpen = true
  quoted : ∃ q : Quote, q.Accepted s ∧ l.principal = q.amount ∧ l.tranches = q.tranches ∧
    l.borrowerAPRBPS = q.borrowerAPRBPS
  owners : ∀ key, (s'.accountAt key).owner = (s.accountAt key).owner
  loanIDs : ∀ key, (s'.accountAt key).loanID =
    if toLower owner = key then id else (s.accountAt key).loanID
  mandates : Pointwise (fun _ m m' => m.SameOffer m') s.mandates s'.mandates
  loans : s'.loans = s.loans.insert id l

/-- A move that opens nothing. -/
inductive Calm (s s' : State) : Prop where
  | quiet (h : Quiet s s')
  | offering {id : String} {m : Mandate} (h : Offering s s' id m)
  | closing {owner id : String} {l : Loan} (h : Closing s s' owner id l)

/-- No move that opens nothing adds or drops a loan. -/
theorem Calm.loans_iff {s s' : State} (h : Calm s s') (id : String) :
    (∃ l, s'.loans[id]? = some l) ↔ ∃ l, s.loans[id]? = some l := by
  cases h with
  | quiet hq =>
      refine ⟨?_, ?_⟩
      · rintro ⟨l', hl'⟩
        obtain ⟨l, hl, _⟩ := hq.loans.get' hl'
        exact ⟨l, hl⟩
      · rintro ⟨l, hl⟩
        obtain ⟨l', hl', _⟩ := hq.loans.get hl
        exact ⟨l', hl'⟩
  | offering ho => rw [ho.loans]
  | closing hc =>
      obtain ⟨l', _, _, hloans⟩ := hc.loans
      rw [hloans, getElem?_insert_eq]
      split
      · rename_i heq
        subst heq
        exact ⟨fun _ => ⟨_, hc.found⟩, fun _ => ⟨_, rfl⟩⟩
      · exact Iff.rfl

/-! ### Quiet moves -/

theorem SameHolders.refl (s : State) : SameHolders s s := fun _ => ⟨rfl, rfl⟩

theorem Quiet.refl (s : State) : Quiet s s :=
  ⟨SameHolders.refl s, Pointwise.refl fun _ m _ => Mandate.SameOffer.refl m,
    Pointwise.refl fun _ l _ => ⟨Loan.SameTerms.refl l, rfl⟩⟩

theorem SameHolders.trans {s s₁ s₂ : State} (h : SameHolders s s₁) (h' : SameHolders s₁ s₂) :
    SameHolders s s₂ :=
  fun key => ⟨(h' key).1.trans (h key).1, (h' key).2.trans (h key).2⟩

theorem Quiet.trans {s s₁ s₂ : State} (h : Quiet s s₁) (h' : Quiet s₁ s₂) : Quiet s s₂ :=
  ⟨h.accounts.trans h'.accounts, h.mandates.comp h'.mandates fun _ _ _ _ h h' => h.trans h',
    h.loans.comp h'.loans fun _ _ _ _ h h' => ⟨h.1.trans h'.1, h'.2.trans h.2⟩⟩

/-- Writing an account that keeps its owner and its loan. -/
theorem sameHolders_putAccount {s : State} {owner : String} {a : Account}
    (howner : a.owner = (s.account owner).owner) (hloan : a.loanID = (s.account owner).loanID) :
    SameHolders s (s.putAccount owner a) := by
  intro key
  rw [accountAt_putAccount]
  by_cases hkey : toLower owner = key
  · rw [if_pos hkey, ← hkey, ← account_eq]
    exact ⟨howner, hloan⟩
  · rw [if_neg hkey]
    exact ⟨rfl, rfl⟩

theorem SameHolders.of_accounts {s s' : State} (h : s'.accounts = s.accounts) :
    SameHolders s s' := by
  intro key
  rw [accountAt_congr h]
  exact ⟨rfl, rfl⟩

theorem Quiet.of_parts {s s' : State} (haccounts : SameHolders s s')
    (hmandates : Pointwise (fun _ m m' => m.SameOffer m') s.mandates s'.mandates)
    (hloans : s'.loans = s.loans) : Quiet s s' := by
  refine ⟨haccounts, hmandates, ?_⟩
  rw [hloans]
  exact Pointwise.refl fun _ l _ => ⟨Loan.SameTerms.refl l, rfl⟩

/-- Nothing but accounts, figures and logs is written. -/
theorem Quiet.of_holders {s s' : State} (haccounts : SameHolders s s')
    (hmandates : s'.mandates = s.mandates) (hloans : s'.loans = s.loans) : Quiet s s' := by
  refine Quiet.of_parts haccounts ?_ hloans
  rw [hmandates]
  exact Pointwise.refl fun _ m _ => Mandate.SameOffer.refl m

theorem quiet_putLoan {s : State} {id : String} {l l' : Loan} (h : s.loans[id]? = some l)
    (hterms : l.SameTerms l') (hopen : l'.isOpen = l.isOpen) : Quiet s (s.putLoan id l') :=
  ⟨SameHolders.refl s, Pointwise.refl fun _ m _ => Mandate.SameOffer.refl m,
    Pointwise.insert h ⟨hterms, hopen⟩ fun _ l _ _ => ⟨Loan.SameTerms.refl l, rfl⟩⟩

theorem sameOffer_putMandate {s : State} {id : String} {m m' : Mandate}
    (h : s.mandates[id]? = some m) (hsame : m.SameOffer m') :
    Pointwise (fun _ m m' => m.SameOffer m') s.mandates (s.putMandate id m').mandates :=
  Pointwise.insert h hsame fun _ m _ _ => Mandate.SameOffer.refl m

theorem RepaymentDistributed.quiet {l : Loan} {interest : UInt64} {s s' : State}
    (h : RepaymentDistributed l interest s s') : Quiet s s' :=
  Quiet.of_parts (fun key => ⟨(h.accounts key).owner, (h.accounts key).loanID⟩)
    (h.mandates.mono fun _ _ _ h => h.toSameOffer) (by rw [h.frame])

/-! ### Each operation -/

section Operations

variable {A : Arith} {host : Host} {ctx : Context} {s s' : State} {owner id : String} {n : Nat}
  {amount : UInt64}

theorem openAccount_quiet (h : openAccount owner id n s = .ok s') : Quiet s s' := by
  obtain ⟨_, _, rfl⟩ := openAccount_ok h
  exact Quiet.of_holders (sameHolders_putAccount rfl rfl) rfl rfl

theorem deposit_quiet {asset : Asset} (h : deposit ctx owner asset amount id s = .ok s') :
    Quiet s s' := by
  obtain ⟨_, _, _, _, _, rfl⟩ := deposit_ok h
  exact Quiet.of_holders (sameHolders_putAccount rfl rfl) rfl rfl

theorem seedBackstop_quiet (h : seedBackstop amount id s = .ok s') : Quiet s s' := by
  obtain ⟨_, _, _, rfl⟩ := seedBackstop_ok h
  exact Quiet.of_holders (SameHolders.of_accounts rfl) rfl rfl

theorem setMandate_offering {minAPR : UInt32} {termMask : UInt8} {cap : UInt64}
    (h : setMandate A ctx owner id amount minAPR termMask cap n s = .ok s') :
    ∃ m, Offering s s' id m := by
  obtain ⟨hnone, _, bal', _, _, rfl⟩ := setMandate_ok h
  exact ⟨_, hnone, rfl, ⟨owner, rfl⟩, sameHolders_putAccount rfl rfl, rfl, rfl⟩

theorem cancelMandate_quiet (h : cancelMandate A owner id n s = .ok s') : Quiet s s' := by
  obtain ⟨_, m, bal', hm, _, _, _, _, rfl⟩ := cancelMandate_ok h
  refine Quiet.of_parts (sameHolders_putAccount rfl rfl) ?_ rfl
  exact sameOffer_putMandate hm ⟨rfl, rfl, rfl, rfl, fun _ => rfl⟩

theorem withdraw_quiet {asset : Asset} (h : withdraw A ctx owner asset amount id n s = .ok s') :
    Quiet s s' := by
  obtain ⟨_, _, s₁, bal', _, hdrawn, rfl⟩ := withdraw_ok h
  have hsame : SameHolders s s₁ := by rw [hdrawn.frame]; exact SameHolders.of_accounts rfl
  have haccount : s₁.account owner = s.account owner := by rw [hdrawn.frame]; rfl
  refine Quiet.of_parts (hsame.trans ?_) ?_ ?_
  · refine sameHolders_putAccount ?_ ?_
    · rw [haccount]
    · rw [haccount]
  · exact hdrawn.mandates.mono fun _ _ _ h => h.toSameOffer
  · show s₁.loans = s.loans
    rw [hdrawn.frame]

theorem withdrawFromMandate_quiet {mandateID : String}
    (h : withdrawFromMandate A ctx owner mandateID amount id n s = .ok s') : Quiet s s' := by
  obtain ⟨_, _, m, _, _, _, hm, _, _, _, _, rfl⟩ := withdrawFromMandate_ok h
  refine Quiet.of_parts (sameHolders_putAccount rfl rfl) ?_ rfl
  exact sameOffer_putMandate hm (retireIfEmpty_sameOffer rfl rfl rfl rfl rfl)

/-- A quiet stretch, then the pointer of the borrower is cleared and the loan filed as closed. -/
theorem Quiet.closing {s₁ : State} {l : Loan} (a : Account) (l' : Loan) (h : Quiet s s₁)
    (hl : s.loans[id]? = some l)
    (hwhich : (s.account owner).loanID = id ∨ (l.isOpen = true ∧ owner = l.borrower))
    (haowner : a.owner = (s₁.account owner).owner) (haloan : a.loanID = "")
    (hterms : l.SameTerms l') (hclosed : l'.isOpen = false)
    (haccounts : s'.accounts = (s₁.putAccount owner a).accounts)
    (hmandates : s'.mandates = s₁.mandates) (hloans : s'.loans = s.loans.insert id l') :
    Closing s s' owner id l := by
  refine ⟨hl, hwhich, ?_, ?_, by rw [hmandates]; exact h.mandates, l', hterms, hclosed, hloans⟩
  · intro key
    rw [accountAt_congr haccounts, accountAt_putAccount]
    by_cases hkey : toLower owner = key
    · rw [if_pos hkey, haowner, account_eq, hkey]
      exact (h.accounts key).1
    · rw [if_neg hkey]
      exact (h.accounts key).1
  · intro key
    rw [accountAt_congr haccounts, accountAt_putAccount]
    by_cases hkey : toLower owner = key
    · rw [if_pos hkey, if_pos hkey, haloan]
    · rw [if_neg hkey, if_neg hkey]
      exact (h.accounts key).2

theorem repay_closing (h : repay A ctx owner amount id n s = .ok s') :
    ∃ l, Closing s s' owner (s.account owner).loanID l := by
  obtain ⟨_, _, l, l₁, due, interest, usdt0', s₁, fxrp', activeDebt, hl, hacc, _, _, _, _, _, hdist, _,
    _, _, rfl⟩ := repay_ok h
  obtain ⟨hterms, _⟩ := accrue_sameTerms hacc
  have hpaid : Quiet s (s.putAccount owner { s.account owner with
      nonce := (s.account owner).nonce + 1
      balances := (s.account owner).balances.set .usdt0 usdt0' }) :=
    Quiet.of_holders (sameHolders_putAccount rfl rfl) rfl rfl
  refine ⟨l, Quiet.closing { s₁.account owner with
    balances := (s₁.account owner).balances.set .fxrp fxrp', loanID := "" }
    { l₁ with status := .closed } (hpaid.trans hdist.quiet) hl (Or.inl rfl) rfl rfl ?_ rfl rfl rfl ?_⟩
  · exact ⟨hterms.id, hterms.borrower, hterms.principal, hterms.collateralFXRP,
      hterms.borrowerAPRBPS, hterms.tranches⟩
  · show s₁.loans.insert _ _ = _
    rw [hdist.frame]
    rfl

theorem liquidateInState_closing {l : Loan} (hl : s.loans[id]? = some l)
    (hopen : l.isOpen = true) (h : liquidateInState A s id l = .ok s') :
    Closing s s' l.borrower id l := by
  obtain ⟨due, interest, seize, backstopUSDT0, backstopFXRP, freed, fxrp', s₁, activeDebt, _, _, _, _,
    _, _, _, hdist, _, rfl⟩ := liquidateInState_ok h
  have htaken : Quiet s ({ s with backstopUSDT0, backstopFXRP }.putAccount l.borrower
      { s.account l.borrower with
        balances := (s.account l.borrower).balances.set .fxrp fxrp' }) :=
    Quiet.of_holders (sameHolders_putAccount rfl rfl) rfl rfl
  refine Quiet.closing { s₁.account l.borrower with loanID := "" }
    { l with status := .liquidated } (htaken.trans hdist.quiet) hl (Or.inr ⟨hopen, rfl⟩) rfl rfl
    ⟨rfl, rfl, rfl, rfl, rfl, rfl⟩ rfl rfl rfl ?_
  show s₁.loans.insert _ _ = _
  rw [hdist.frame]
  rfl

theorem acceptQuote_opening {q : Quote} {loanID : String} {observed : Option Price}
    (h : acceptQuote A host ctx q loanID n observed s = .ok s') :
    ∃ l, Opening s s' q.borrower loanID l := by
  obtain ⟨_, _, hidle, hacc, fxrp', s₁, l, activeDebt, price, _, _, hall, hterms, hopen, _, rfl⟩ :=
    acceptQuote_ok h
  have haccounts : s₁.accounts = s.accounts := by rw [hall.frame]
  have hloans : s₁.loans = s.loans := by rw [hall.frame]
  refine ⟨l, hidle, hterms.id, hterms.borrower, hopen,
    ⟨q, hacc, hterms.principal, hterms.tranches, hterms.borrowerAPRBPS⟩, ?_, ?_, ?_, ?_⟩
  · intro key
    show (((s₁.putLoan loanID l).putAccount q.borrower _).accountAt key).owner = _
    rw [accountAt_putAccount]
    by_cases hkey : toLower q.borrower = key
    · rw [if_pos hkey, ← hkey]
      rfl
    · rw [if_neg hkey, accountAt_putLoan, accountAt_congr haccounts]
  · intro key
    show (((s₁.putLoan loanID l).putAccount q.borrower _).accountAt key).loanID = _
    rw [accountAt_putAccount]
    by_cases hkey : toLower q.borrower = key
    · rw [if_pos hkey, if_pos hkey]
    · rw [if_neg hkey, if_neg hkey, accountAt_putLoan, accountAt_congr haccounts]
  · exact hall.mandates.mono fun _ _ _ h => h.toSameOffer
  · show s₁.loans.insert _ _ = _
    rw [hloans]

/-! ### Every operation but `AcceptQuote` -/

open Relation

theorem tickLoan_calm {price : Price} (h : tickLoan A ctx price s id = .ok s') :
    ReflTransGen Calm s s' := by
  rcases tickLoan_ok h with rfl | ⟨l, l₁, hl, hopen, hterms, hopen₁, hcase⟩
  · exact ReflTransGen.refl
  · have hupdate : Quiet s (s.putLoan id l₁) :=
      quiet_putLoan hl hterms (hopen₁.trans hopen.symm)
    rcases hcase with rfl | ⟨_, hliq⟩
    · exact ReflTransGen.single (.quiet hupdate)
    · have hl₁ : (s.putLoan id l₁).loans[id]? = some l₁ := by rw [putLoan_get, if_pos rfl]
      exact (ReflTransGen.single (.quiet hupdate)).tail
        (.closing (liquidateInState_closing hl₁ hopen₁ hliq))

theorem riskTick_calm {price : Price} (h : riskTick A ctx price id s = .ok s') :
    ReflTransGen Calm s s' := by
  obtain ⟨_, s₁, hloop, rfl⟩ := riskTick_ok h
  have hprice : Calm s { s with price } :=
    .quiet (Quiet.of_holders (SameHolders.of_accounts rfl) rfl rfl)
  have hmark : Calm s₁ (s₁.markProcessed id) :=
    .quiet (Quiet.of_holders (SameHolders.of_accounts rfl) rfl rfl)
  have htick : ReflTransGen Calm { s with price } s₁ :=
    foldlM_ok (R := fun _ => ReflTransGen Calm) (fun _ => ReflTransGen.refl)
      (fun _ _ _ _ _ hfirst hrest => (tickLoan_calm hfirst).trans hrest) hloop
  exact ((ReflTransGen.single hprice).trans htick).tail hmark

theorem liquidate_calm {loanID : String} (h : liquidate A loanID id s = .ok s') :
    ReflTransGen Calm s s' := by
  obtain ⟨_, l, s₁, hl, hstatus, hliq, rfl⟩ := liquidate_ok h
  have hopen : l.isOpen = true := by simp [Loan.isOpen, hstatus]
  have hmark : Calm s₁ (s₁.markProcessed id) :=
    .quiet (Quiet.of_holders (SameHolders.of_accounts rfl) rfl rfl)
  exact (ReflTransGen.single (.closing (liquidateInState_closing hl hopen hliq))).tail hmark

/-- The loan id an operation brings, if it is `AcceptQuote`. -/
def Operation.loanID : Operation → Option String
  | .acceptQuote _ loanID _ _ => some loanID
  | _ => none

/-- **What a committed operation does to loans and mandates**: `AcceptQuote` opens one loan, and
every other operation is a sequence of moves that open none. -/
theorem body_moves {op : Operation} (h : op.body A host ctx s = .ok s') :
    (∃ q loanID nonce observed l, op = .acceptQuote q loanID nonce observed ∧
      Opening s s' q.borrower loanID l) ∨
    (op.loanID = none ∧ ReflTransGen Calm s s') := by
  cases op with
  | openAccount owner id nonce =>
      exact Or.inr ⟨rfl, ReflTransGen.single (.quiet (openAccount_quiet h))⟩
  | deposit owner asset amount id =>
      obtain ⟨asset', _, h⟩ := bind_eq_ok.mp h
      exact Or.inr ⟨rfl, ReflTransGen.single (.quiet (deposit_quiet h))⟩
  | setMandate owner id amount minAPR termMask cap nonce =>
      obtain ⟨m, hm⟩ := setMandate_offering h
      exact Or.inr ⟨rfl, ReflTransGen.single (.offering hm)⟩
  | cancelMandate owner id nonce =>
      exact Or.inr ⟨rfl, ReflTransGen.single (.quiet (cancelMandate_quiet h))⟩
  | acceptQuote q loanID nonce observed =>
      obtain ⟨l, hl⟩ := acceptQuote_opening h
      exact Or.inl ⟨q, loanID, nonce, observed, l, rfl, hl⟩
  | riskTick price id => exact Or.inr ⟨rfl, riskTick_calm h⟩
  | repay owner amount id nonce =>
      obtain ⟨l, hl⟩ := repay_closing h
      exact Or.inr ⟨rfl, ReflTransGen.single (.closing hl)⟩
  | liquidate loanID id => exact Or.inr ⟨rfl, liquidate_calm h⟩
  | seedBackstop amount id =>
      exact Or.inr ⟨rfl, ReflTransGen.single (.quiet (seedBackstop_quiet h))⟩
  | withdraw owner asset amount id nonce =>
      obtain ⟨asset', _, h⟩ := bind_eq_ok.mp h
      exact Or.inr ⟨rfl, ReflTransGen.single (.quiet (withdraw_quiet h))⟩
  | withdrawFromMandate owner mandateID amount id nonce =>
      exact Or.inr ⟨rfl, ReflTransGen.single (.quiet (withdrawFromMandate_quiet h))⟩

end Operations

end QuietLine
