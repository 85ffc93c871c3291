/-
What the nonces of a run count.

Seven operations consume the nonce of the account they are for; the others leave
every nonce alone, and so does a call that is refused.  The nonce of an account is
therefore the number of commits that consumed it, and two commits that consumed
one nonce value are one commit.
-/
import QuietLine.Proofs.Wellformed

namespace QuietLine

open Outcome MapSum MapRel Std

/-- The account an operation is executed for, if it consumes that account's nonce, and the nonce it
was called with. -/
def Operation.consumes : Operation → Option (String × Nat)
  | .openAccount owner _ n => some (toLower owner, n)
  | .setMandate owner _ _ _ _ _ n => some (toLower owner, n)
  | .cancelMandate owner _ n => some (toLower owner, n)
  | .acceptQuote q _ n _ => some (toLower q.borrower, n)
  | .repay owner _ _ n => some (toLower owner, n)
  | .withdraw owner _ _ _ n => some (toLower owner, n)
  | .withdrawFromMandate owner _ _ _ n => some (toLower owner, n)
  | .deposit .. | .riskTick .. | .liquidate .. | .seedBackstop .. => none

/-- Whether a call consumes a nonce of `key`, as a number. -/
def Event.nonceWeight (key : String) : Event → Nat
  | .operate _ _ op => op.consumes.elim 0 fun c => if c.1 = key then 1 else 0
  | .confirm .. => 0

/-- Every nonce is what it was, but for one more at the account `key`. -/
def NonceConsumed (key : String) (n : Nat) (s s' : State) : Prop :=
  (s.accountAt key).nonce = n ∧
    ∀ key', (s'.accountAt key').nonce = (s.accountAt key').nonce + if key = key' then 1 else 0

/-- Every nonce is what it was. -/
def SameNonces (s s' : State) : Prop :=
  ∀ key, (s'.accountAt key).nonce = (s.accountAt key).nonce

theorem SameNonces.of_accounts {s s' : State} (h : s'.accounts = s.accounts) : SameNonces s s' :=
  fun key => by rw [accountAt_congr h]

theorem SameNonces.trans {s s₁ s₂ : State} (h : SameNonces s s₁) (h' : SameNonces s₁ s₂) :
    SameNonces s s₂ :=
  fun key => (h' key).trans (h key)

theorem sameNonces_putAccount {s : State} {owner : String} {a : Account}
    (h : a.nonce = (s.account owner).nonce) : SameNonces s (s.putAccount owner a) := by
  intro key
  rw [accountAt_putAccount]
  by_cases hkey : toLower owner = key
  · rw [if_pos hkey, h, account_eq, hkey]
  · rw [if_neg hkey]

theorem nonceConsumed_putAccount {s : State} {owner : String} {a : Account} {n : Nat}
    (hn : (s.account owner).nonce = n) (h : a.nonce = (s.account owner).nonce + 1) :
    NonceConsumed (toLower owner) n s (s.putAccount owner a) := by
  refine ⟨hn, ?_⟩
  intro key
  rw [accountAt_putAccount]
  by_cases hkey : toLower owner = key
  · rw [if_pos hkey, if_pos hkey, h, account_eq, hkey]
  · rw [if_neg hkey, if_neg hkey, Nat.add_zero]

theorem NonceConsumed.trans {s s₁ s₂ : State} {key : String} {n : Nat}
    (h : NonceConsumed key n s s₁) (h' : SameNonces s₁ s₂) : NonceConsumed key n s s₂ :=
  ⟨h.1, fun key' => (h' key').trans (h.2 key')⟩

theorem NonceConsumed.of_same {s s₁ s₂ : State} {key : String} {n : Nat}
    (h' : SameNonces s s₁) (h : NonceConsumed key n s₁ s₂) : NonceConsumed key n s s₂ :=
  ⟨(h' key).symm.trans h.1, fun key' => by rw [h.2 key', h' key']⟩

theorem RepaymentDistributed.sameNonces {l : Loan} {interest : UInt64} {s s' : State}
    (h : RepaymentDistributed l interest s s') : SameNonces s s' :=
  fun key => (h.accounts key).nonce

/-! ### Each operation -/

section Operations

variable {A : Arith} {host : Host} {ctx : Context} {s s' : State} {owner id : String} {n : Nat}

theorem liquidateInState_nonces {l : Loan} (h : liquidateInState A s id l = .ok s') :
    SameNonces s s' := by
  obtain ⟨_, _, _, backstopUSDT0, backstopFXRP, _, fxrp', s₁, _, _, _, _, _, _, _, _, hdist, _, rfl⟩ :=
    liquidateInState_ok h
  have htaken : SameNonces s ({ s with backstopUSDT0, backstopFXRP }.putAccount l.borrower
      { s.account l.borrower with
        balances := (s.account l.borrower).balances.set .fxrp fxrp' }) :=
    sameNonces_putAccount rfl
  refine (htaken.trans hdist.sameNonces).trans ?_
  exact sameNonces_putAccount rfl

theorem tickLoan_nonces {price : Price} (h : tickLoan A ctx price s id = .ok s') :
    SameNonces s s' := by
  rcases tickLoan_ok h with rfl | ⟨l, l₁, _, _, _, _, rfl | ⟨_, hliq⟩⟩
  · exact SameNonces.of_accounts rfl
  · exact SameNonces.of_accounts rfl
  · have hput : SameNonces s (s.putLoan id l₁) := SameNonces.of_accounts rfl
    exact hput.trans (liquidateInState_nonces hliq)

theorem repay_nonces {amount : UInt64} (h : repay A ctx owner amount id n s = .ok s') :
    NonceConsumed (toLower owner) n s s' := by
  obtain ⟨_, hn, _, _, _, _, usdt0', s₁, fxrp', _, _, _, _, _, _, _, _, hdist, _, _, _, rfl⟩ :=
    repay_ok h
  have hpaid : NonceConsumed (toLower owner) n s (s.putAccount owner { s.account owner with
      nonce := (s.account owner).nonce + 1
      balances := (s.account owner).balances.set .usdt0 usdt0' }) :=
    nonceConsumed_putAccount hn rfl
  refine (hpaid.trans hdist.sameNonces).trans ?_
  exact sameNonces_putAccount rfl

/-- **What an operation does to the nonces**: one account's grows by one, from the value the call
named, or none changes. -/
theorem body_nonces {op : Operation} (h : op.body A host ctx s = .ok s') :
    match op.consumes with
    | some (key, n) => NonceConsumed key n s s'
    | none => SameNonces s s' := by
  cases op with
  | openAccount owner id n =>
      obtain ⟨_, hn, rfl⟩ := openAccount_ok h
      exact nonceConsumed_putAccount hn rfl
  | deposit owner asset amount id =>
      obtain ⟨asset', _, h⟩ := bind_eq_ok.mp h
      obtain ⟨_, _, _, _, _, rfl⟩ := deposit_ok h
      exact sameNonces_putAccount rfl
  | setMandate owner id amount minAPR termMask cap n =>
      obtain ⟨_, hn, _, _, _, rfl⟩ := setMandate_ok h
      exact nonceConsumed_putAccount hn rfl
  | cancelMandate owner id n =>
      obtain ⟨hn, _, _, _, _, _, _, _, rfl⟩ := cancelMandate_ok h
      exact nonceConsumed_putAccount hn rfl
  | acceptQuote q loanID n observed =>
      obtain ⟨_, hn, _, _, fxrp', s₁, l, _, _, _, _, hall, _, _, _, rfl⟩ := acceptQuote_ok h
      have haccounts : s₁.accounts = s.accounts := by rw [hall.frame]
      have hsame : SameNonces s (s₁.putLoan loanID l) := SameNonces.of_accounts haccounts
      have haccount : (s₁.putLoan loanID l).account q.borrower = s.account q.borrower :=
        accountAt_congr haccounts _
      refine NonceConsumed.of_same hsame ?_
      exact nonceConsumed_putAccount (by rw [haccount]; exact hn) (by rw [haccount])
  | riskTick price id =>
      obtain ⟨_, s₁, hloop, rfl⟩ := riskTick_ok h
      have htick : SameNonces { s with price } s₁ :=
        foldlM_ok (R := fun _ => SameNonces) (fun _ _ => rfl)
          (fun _ _ _ _ _ hfirst hrest => (tickLoan_nonces hfirst).trans hrest) hloop
      exact htick
  | repay owner amount id n => exact repay_nonces h
  | liquidate loanID id =>
      obtain ⟨_, _, s₁, _, _, hliq, rfl⟩ := liquidate_ok h
      have hsame : SameNonces s s₁ := liquidateInState_nonces hliq
      exact hsame
  | seedBackstop amount id =>
      obtain ⟨_, _, _, rfl⟩ := seedBackstop_ok h
      exact SameNonces.of_accounts rfl
  | withdraw owner asset amount id n =>
      obtain ⟨asset', _, h⟩ := bind_eq_ok.mp h
      obtain ⟨_, hn, s₁, bal', _, hdrawn, rfl⟩ := withdraw_ok h
      have haccounts : s₁.accounts = s.accounts := by rw [hdrawn.frame]
      have haccount : s₁.account owner = s.account owner := accountAt_congr haccounts _
      refine NonceConsumed.of_same (SameNonces.of_accounts haccounts) ?_
      exact nonceConsumed_putAccount (by rw [haccount]; exact hn) (by rw [haccount])
  | withdrawFromMandate owner mandateID amount id n =>
      obtain ⟨_, hn, _, _, _, _, _, _, _, _, _, rfl⟩ := withdrawFromMandate_ok h
      exact nonceConsumed_putAccount hn rfl

end Operations

/-! ### Runs -/

theorem step_nonce {A : Arith} {host : Host} (key : String) (s : State) (e : Event) (s' : State)
    (h : step A host s e = .ok s') :
    (s'.accountAt key).nonce = (s.accountAt key).nonce + e.nonceWeight key := by
  cases e with
  | operate ctx stored op =>
      obtain ⟨_, _, next, hbody, rfl⟩ := Operation.apply_ok h
      have hnonces := body_nonces hbody
      show (next.accountAt key).nonce =
        (s.accountAt key).nonce + op.consumes.elim 0 fun c => if c.1 = key then 1 else 0
      cases hc : op.consumes with
      | none =>
          rw [hc] at hnonces
          exact hnonces key
      | some c =>
          rw [hc] at hnonces
          exact hnonces.2 key
  | confirm sequence root stored =>
      obtain rfl := confirmAnchor_ok h
      rfl

/-- **A nonce counts the commits that consumed it.** -/
theorem nonce_ledgerAfter (A : Arith) (host : Host) (events : List Event) (key : String) :
    ((ledgerAfter A host events).accountAt key).nonce =
      ((Machine.commits (step A host) newState events).map fun c => c.2.nonceWeight key).sum := by
  have hzero : (newState.accountAt key).nonce = 0 := by simp [newState, State.accountAt]
  have hcount : ((ledgerAfter A host events).accountAt key).nonce =
      (newState.accountAt key).nonce + _ :=
    Machine.counted (f := fun s => (s.accountAt key).nonce) (step_nonce key) newState events
  rw [hzero, Nat.zero_add] at hcount
  exact hcount

end QuietLine
