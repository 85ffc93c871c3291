/-
Repayment and liquidation (`distributeRepayment`, `liquidateInState`).

One debit is spread over the tranches of a loan: principal goes back to the
mandate it came from, or to its lender when the mandate is no longer active, and
each lender is credited a share of the interest; the protocol keeps the rest.
-/
import QuietLine.Ledger.Risk

namespace QuietLine

open Outcome

/-- `fmt.Errorf("context: %w", err)` around a call. -/
def withContext {α : Type} (context : String) (x : Except LedgerError α) : Except LedgerError α :=
  match x with
  | .ok a => .ok a
  | .error e => .error (.wrap context e)

/-- `if err != nil { return errors.New(…) }` after a call. -/
def answering {α : Type} (err : LedgerError) (x : Except LedgerError α) : Except LedgerError α :=
  match x with
  | .ok a => .ok a
  | .error _ => .error err

@[simp] theorem withContext_eq_ok {α : Type} {context : String} {x : Except LedgerError α}
    {a : α} : withContext context x = .ok a ↔ x = .ok a := by
  cases x with
  | error e => simp [withContext]
  | ok b => simp [withContext]

@[simp] theorem answering_eq_ok {α : Type} {err : LedgerError} {x : Except LedgerError α} {a : α} :
    answering err x = .ok a ↔ x = .ok a := by
  cases x with
  | error e => simp [answering]
  | ok b => simp [answering]

/-- `if m.Available == 0 && m.AllocatedPrincipal == 0 { m.Active = false }`. -/
def Mandate.retireIfEmpty (m : Mandate) : Mandate :=
  if m.available = 0 ∧ m.allocatedPrincipal = 0 then { m with active := false } else m

/-! ### One tranche -/

/-- What `distributeRepayment` carries from one tranche to the next. -/
structure Distribution where
  state : State
  principalReturned : UInt64 := 0
  lenderInterestDistributed : UInt64 := 0

/-- Where the principal of a tranche goes back to: the lendable amount of the mandate, or the
lender's own balance when the mandate has been cancelled. -/
def returnPrincipal (m : Mandate) (lb : Balance) (principal : UInt64) :
    Except LedgerError (UInt64 × Balance) := do
  if m.active then
    let available ← withContext "restoring mandate liquidity" (checkedAdd m.available principal)
    return (available, lb)
  else
    let reserved ← withContext "returning lender reserved principal"
      (checkedSub lb.reserved principal)
    let available ← checkedAdd lb.available principal
    return (m.available, { available, reserved })

/-- The interest a tranche earns: its share by principal, scaled to the lender's rate. -/
def trancheInterest (l : Loan) (interest : UInt64) (t : Tranche) : Except LedgerError UInt64 := do
  let share ← mulDiv [interest, t.principal] l.principal false
  mulDiv [share, t.aprBPS.toUInt64] l.borrowerAPRBPS.toUInt64 false

/-- One round of the loop of `distributeRepayment`. -/
def payTranche (l : Loan) (interest : UInt64) (d : Distribution) (t : Tranche) :
    Except LedgerError Distribution := do
  let lender := d.state.account t.lender
  let lb := lender.balances.usdt0
  let lenderInterest ← trancheInterest l interest t
  let m ← orElse .missingMandate d.state.mandates[t.mandateID]?
  let allocated ← withContext "decreasing mandate allocation"
    (checkedSub m.allocatedPrincipal t.principal)
  let returned ← returnPrincipal m lb t.principal
  let credited ← checkedAdd returned.2.available lenderInterest
  let lender := { lender with
    balances := lender.balances.set .usdt0 { returned.2 with available := credited } }
  let interestEarned ← checkedAdd m.interestEarned lenderInterest
  let m := { m with available := returned.1, allocatedPrincipal := allocated, interestEarned }
  let m := m.retireIfEmpty
  let principalReturned ← checkedAdd d.principalReturned t.principal
  let lenderInterestDistributed ← checkedAdd d.lenderInterestDistributed lenderInterest
  return {
    state := (d.state.putAccount t.lender lender).putMandate t.mandateID m
    principalReturned
    lenderInterestDistributed }

/-! ### The whole loan -/

/-- `distributeRepayment`. -/
def distributeRepayment (s : State) (l : Loan) (interest : UInt64) : Except LedgerError State := do
  let d ← l.tranches.foldlM (payTranche l interest) { state := s }
  rejectIf (d.principalReturned ≠ l.principal) .trancheConservation
  let protocolSpread ← answering .lenderInterestExceeds
    (checkedSub interest d.lenderInterestDistributed)
  let protocolReserve ← checkedAdd d.state.protocolReserve protocolSpread
  return { d.state with protocolReserve }

/-- `liquidateInState`, for the loan `l` filed under `id`. -/
def liquidateInState (A : Arith) (s : State) (id : String) (l : Loan) :
    Except LedgerError State := do
  let due ← debt l
  rejectIf (s.backstopUSDT0 < due) .backstopInsufficient
  let seize ← mulDivBy [due, scale, bps] [s.price.xrpUSDE6, 9500] false
  let seize := if seize > l.collateralFXRP then l.collateralFXRP else seize
  let backstopUSDT0 ← A.sub s.backstopUSDT0 due
  let backstopFXRP ← A.add s.backstopFXRP seize
  let borrower := s.account l.borrower
  let reserved ← A.sub borrower.balances.fxrp.reserved l.collateralFXRP
  let freed ← A.sub l.collateralFXRP seize
  let available ← A.add borrower.balances.fxrp.available freed
  let s := { s with backstopUSDT0, backstopFXRP }
  let s := s.putAccount l.borrower { borrower with
    balances := borrower.balances.set .fxrp { available, reserved } }
  let interest ← checkedSub due l.principal
  let s ← distributeRepayment s l interest
  let activeDebt ← A.sub s.activeDebt l.principal
  -- the distribution may have paid the borrower as one of the lenders
  let s := s.putAccount l.borrower { s.account l.borrower with loanID := "" }
  return { s.putLoan id { l with status := .liquidated } with activeDebt }

end QuietLine
