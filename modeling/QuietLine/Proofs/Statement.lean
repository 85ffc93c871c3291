/-
The statement of an account.

`Deposit`, `Withdraw` and `WithdrawFromMandate` each append one line to the activities,
and nothing else touches them.  So the lines are the commits that put funds in or took
funds out, in their order, and an account's statement is the part of it that names the
account.
-/
import QuietLine.Proofs.Wellformed

namespace QuietLine

open Outcome

/-- The line that an operation adds to the activities. -/
def Operation.activity (ctx : Context) : Operation → Option Activity
  | .deposit owner asset amount id => (Asset.ofName asset).map fun asset =>
      { id, account := toLower owner, kind := "deposit", asset, amount, createdAt := ctx.now }
  | .withdraw owner asset amount id _ => (Asset.ofName asset).map fun asset =>
      { id, account := toLower owner, kind := "withdrawal", asset, amount, createdAt := ctx.now }
  | .withdrawFromMandate owner _ amount id _ => some
      { id, account := toLower owner, kind := "withdrawal", asset := .usdt0, amount,
        createdAt := ctx.now }
  | _ => none

def Event.activity : Event → Option Activity
  | .operate ctx _ op => op.activity ctx
  | .confirm .. => none

/-! ### Each operation -/

section Operations

variable {A : Arith} {host : Host} {ctx : Context} {s s' : State} {owner id : String}
  {amount : UInt64} {n : Nat}

theorem RepaymentDistributed.activities {l : Loan} {interest : UInt64}
    (h : RepaymentDistributed l interest s s') : s'.activities = s.activities := by
  rw [h.frame]

theorem liquidateInState_activities {l : Loan} (h : liquidateInState A s id l = .ok s') :
    s'.activities = s.activities := by
  obtain ⟨_, _, _, _, _, _, _, s₁, _, _, _, _, _, _, _, _, hdist, _, rfl⟩ := liquidateInState_ok h
  show s₁.activities = s.activities
  rw [hdist.activities]
  rfl

theorem tickLoan_activities {price : Price} (h : tickLoan A ctx price s id = .ok s') :
    s'.activities = s.activities := by
  rcases tickLoan_ok h with rfl | ⟨l, l₁, _, _, _, _, rfl | ⟨_, hliq⟩⟩
  · rfl
  · rfl
  · rw [liquidateInState_activities hliq]
    rfl

theorem deposit_activities (hs : Wellformed s) {asset : Asset}
    (h : deposit ctx owner asset amount id s = .ok s') : s'.activities = s.activities ++
      [{ id, account := toLower owner, kind := "deposit", asset, amount,
         createdAt := ctx.now }] := by
  unfold deposit at h
  simp only [bind_eq_ok, rejectIf_eq_ok] at h
  obtain ⟨_, _, _, _, hs'⟩ := h
  cases hs'
  rw [← account_owner hs owner]
  rfl

theorem withdraw_activities (hs : Wellformed s) {asset : Asset}
    (h : withdraw A ctx owner asset amount id n s = .ok s') : s'.activities = s.activities ++
      [{ id, account := toLower owner, kind := "withdrawal", asset, amount,
         createdAt := ctx.now }] := by
  unfold withdraw at h
  simp only [bind_eq_ok, rejectIf_eq_ok, consumeNonce_eq_ok] at h
  obtain ⟨_, _, a, ⟨_, rfl⟩, drawn, hdrawn, hs'⟩ := h
  have hframe : drawn.1.activities = s.activities := by rw [(drawBalance_ok hdrawn).frame]
  cases hs'
  show drawn.1.activities ++ _ = _
  rw [hframe, ← account_owner hs owner]

theorem withdrawFromMandate_activities (hs : Wellformed s) {mandateID : String}
    (h : withdrawFromMandate A ctx owner mandateID amount id n s = .ok s') :
    s'.activities = s.activities ++
      [{ id, account := toLower owner, kind := "withdrawal", asset := .usdt0, amount,
         createdAt := ctx.now }] := by
  unfold withdrawFromMandate at h
  simp only [bind_eq_ok, rejectIf_eq_ok, orElse_eq_ok, consumeNonce_eq_ok] at h
  obtain ⟨_, _, m, _, _, _, a, ⟨_, rfl⟩, _, _, reserved, _, available, _, hs'⟩ := h
  cases hs'
  rw [← account_owner hs owner]
  rfl

/-- **An operation adds its line and no other.** -/
theorem body_activities {op : Operation} (hs : Wellformed s) (h : op.body A host ctx s = .ok s') :
    s'.activities = s.activities ++ (op.activity ctx).toList := by
  have hnone : s'.activities = s.activities → s'.activities = s.activities ++ [] :=
    fun hsame => hsame.trans (List.append_nil _).symm
  cases op with
  | openAccount owner id n =>
      obtain ⟨_, _, rfl⟩ := openAccount_ok h
      exact hnone rfl
  | deposit owner asset amount id =>
      obtain ⟨asset', hasset, h⟩ := bind_eq_ok.mp h
      have hname := orElse_eq_ok.mp hasset
      rw [deposit_activities hs h, Operation.activity, hname]
      rfl
  | setMandate owner id amount minAPR termMask cap n =>
      obtain ⟨_, _, _, _, _, rfl⟩ := setMandate_ok h
      exact hnone rfl
  | cancelMandate owner id n =>
      obtain ⟨_, _, _, _, _, _, _, _, rfl⟩ := cancelMandate_ok h
      exact hnone rfl
  | acceptQuote q loanID n observed =>
      obtain ⟨_, _, _, _, _, s₁, l, _, _, _, _, hall, _, _, _, rfl⟩ := acceptQuote_ok h
      refine hnone ?_
      show s₁.activities = s.activities
      rw [hall.frame]
  | riskTick price id =>
      obtain ⟨_, s₁, hloop, rfl⟩ := riskTick_ok h
      have htick : s₁.activities = ({ s with price } : State).activities :=
        foldlM_ok (R := fun _ (s s' : State) => s'.activities = s.activities) (fun _ => rfl)
          (fun _ _ _ _ _ hfirst hrest => hrest.trans (tickLoan_activities hfirst)) hloop
      exact hnone htick
  | repay owner amount id n =>
      obtain ⟨_, _, _, _, _, _, _, s₁, _, _, _, _, _, _, _, _, _, hdist, _, _, _, rfl⟩ := repay_ok h
      refine hnone ?_
      show s₁.activities = s.activities
      rw [hdist.activities]
      rfl
  | liquidate loanID id =>
      obtain ⟨_, _, s₁, _, _, hliq, rfl⟩ := liquidate_ok h
      refine hnone ?_
      show s₁.activities = s.activities
      exact liquidateInState_activities hliq
  | seedBackstop amount id =>
      obtain ⟨_, _, _, rfl⟩ := seedBackstop_ok h
      exact hnone rfl
  | withdraw owner asset amount id n =>
      obtain ⟨asset', hasset, h⟩ := bind_eq_ok.mp h
      have hname := orElse_eq_ok.mp hasset
      rw [withdraw_activities hs h, Operation.activity, hname]
      rfl
  | withdrawFromMandate owner mandateID amount id n =>
      exact withdrawFromMandate_activities hs h

end Operations

/-! ### Runs -/

theorem step_activities {A : Arith} {host : Host} {s s' : State} {e : Event} (hs : Wellformed s)
    (h : step A host s e = .ok s') : s'.activities = s.activities ++ e.activity.toList := by
  cases e with
  | operate ctx stored op =>
      obtain ⟨_, _, next, hbody, rfl⟩ := Operation.apply_ok h
      show next.activities = _
      exact body_activities hs hbody
  | confirm sequence root stored =>
      obtain rfl := confirmAnchor_ok h
      exact (List.append_nil _).symm

/-- **The activities are the commits that put funds in or took funds out**, in their order. -/
theorem activities_ledgerAfter (A : Arith) (host : Host) (events : List Event) :
    (ledgerAfter A host events).activities =
      (Machine.commits (step A host) newState events).filterMap fun c => c.2.activity := by
  have hstep : ∀ (past : List (State × Event)) s e s',
      (Wellformed s ∧ s.activities = past.filterMap fun c => c.2.activity) →
      step A host s e = .ok s' →
      Wellformed s' ∧ s'.activities = (past ++ [(s, e)]).filterMap fun c => c.2.activity := by
    rintro past s e s' ⟨hs, hpast⟩ hstep
    refine ⟨wellformed_step s e s' hs hstep, ?_⟩
    rw [step_activities hs hstep, hpast, List.filterMap_append]
    cases hline : e.activity with
    | none => simp [hline]
    | some line => simp [hline]
  exact (Machine.history (fun past s => Wellformed s ∧
    s.activities = past.filterMap fun c => c.2.activity) hstep ⟨wellformed_newState, rfl⟩ events).2

end QuietLine
