/-
The eleven operations of the ledger (`ledger/engine.go`).

Each definition below is the closure its Go method passes to `mutate`, applied to
the copy of the state that `mutate` makes, under the method's own name.  What the
methods check before they call `mutate` is `Operation.validate`.  The clock is
read once per operation, except that `RiskTick` reads it a first time before it
waits for the lock (`requestedAt`).
-/
import QuietLine.Ledger.Quote
import QuietLine.Ledger.Repayment

namespace QuietLine

open Outcome Std

/-- What an operation takes from its surroundings. -/
structure Context where
  requestedAt : Int
  now : Int
  range : RangeOrder

/-- The asset of a name; the methods take the name as a string. -/
def Asset.ofName (name : String) : Option Asset :=
  if name = "FXRP" then some .fxrp else if name = "USDT0" then some .usdt0 else none

/-- `consumeNonce`. -/
def consumeNonce (a : Account) (expected : Nat) : Except LedgerError Account := do
  rejectIf (a.nonce ≠ expected) (.staleNonce a.nonce expected)
  return { a with nonce := a.nonce + 1 }

/-! ### Accounts and deposits -/

def openAccount (owner operationID : String) (expectedNonce : Nat) (s : State) :
    Except LedgerError State := do
  rejectIf (operationID ∈ s.processed) .duplicate
  let a ← consumeNonce (s.account owner) expectedNonce
  return (s.putAccount owner a).markProcessed operationID

def deposit (ctx : Context) (owner : String) (asset : Asset) (amount : UInt64) (depositID : String)
    (s : State) : Except LedgerError State := do
  rejectIf (depositID ∈ s.processed) .duplicate
  let a := s.account owner
  let bal := a.balances.get asset
  rejectIf (0xFFFFFFFFFFFFFFFF - bal.available < amount) .balanceExceedsUint64
  let bal := { bal with available := bal.available + amount }
  let s := s.putAccount owner { a with balances := a.balances.set asset bal }
  let s := s.markProcessed depositID
  return { s with activities := s.activities ++
    [{ id := depositID, account := a.owner, kind := "deposit", asset, amount,
       createdAt := ctx.now }] }

def seedBackstop (amount : UInt64) (operationID : String) (s : State) :
    Except LedgerError State := do
  rejectIf (operationID ∈ s.processed) .duplicate
  rejectIf (0xFFFFFFFFFFFFFFFF - s.backstopUSDT0 < amount) .backstopExceedsUint64
  let s := { s with backstopUSDT0 := s.backstopUSDT0 + amount }
  return s.markProcessed operationID

/-! ### Mandates -/

def setMandate (A : Arith) (ctx : Context) (owner id : String) (amount : UInt64) (minAPR : UInt32)
    (termMask : UInt8) (perBorrowerCap : UInt64) (expectedNonce : Nat) (s : State) :
    Except LedgerError State := do
  rejectIf (s.mandates[id]?.isSome) .duplicate
  let a ← consumeNonce (s.account owner) expectedNonce
  let bal := a.balances.usdt0
  rejectIf (bal.available < amount) .insufficientBalance
  let available ← A.sub bal.available amount
  let reserved ← A.add bal.reserved amount
  let s := s.putAccount owner
    { a with balances := a.balances.set .usdt0 { available, reserved } }
  return s.putMandate id
    { id, lender := a.owner, available := amount, minAPRBPS := minAPR, termMask, perBorrowerCap,
      active := true, createdAt := ctx.now }

def cancelMandate (A : Arith) (owner id : String) (expectedNonce : Nat) (s : State) :
    Except LedgerError State := do
  let m ← orElse .mandateUnavailable s.mandates[id]?
  rejectIf (m.lender ≠ toLower owner ∨ m.active = false) .mandateUnavailable
  let a ← consumeNonce (s.account owner) expectedNonce
  let bal := a.balances.usdt0
  let reserved ← A.sub bal.reserved m.available
  let available ← A.add bal.available m.available
  let s := s.putAccount owner
    { a with balances := a.balances.set .usdt0 { available, reserved } }
  return s.putMandate id { m with available := 0, active := false }

/-! ### Borrowing -/

/-- `AcceptQuote` prices the loan at the observation it is given. -/
def observePrice (observed : Option Price) (now : Int) (s : State) : Except LedgerError State :=
  match observed with
  | none => .ok s
  | some price => do
      rejectIf (price.isUnusable now) .invalidObservation
      return { s with price }

/-- One round of the loop of `AcceptQuote`. -/
def allocateTranche (A : Arith) (s : State) (t : Tranche) : Except LedgerError State := do
  let m ← orElse .liquidityChanged s.mandates[t.mandateID]?
  rejectIf (m.available < t.principal) .liquidityChanged
  let available ← A.sub m.available t.principal
  let allocatedPrincipal ← A.add m.allocatedPrincipal t.principal
  return s.putMandate t.mandateID { m with available, allocatedPrincipal }

/-- The loan `AcceptQuote` opens. -/
def Quote.loan (q : Quote) (loanID borrower : String) (now : Int) : Loan :=
  { id := loanID, borrower, principal := q.amount, collateralFXRP := q.collateralFXRP,
    borrowerAPRBPS := q.borrowerAPRBPS, termDays := q.termDays, startedAt := now,
    lastAccruedAt := now, maturesAt := int64 (now + q.termDays.toNat * 86400),
    tranches := q.tranches, status := .healthy }

/-- A fresh quote on the same terms, or `ErrLiquidityChanged`. -/
def requireSameQuote (host : Host) (ctx : Context) (s : State) (q : Quote) :
    Except LedgerError Unit := do
  let fresh ← answering .liquidityChanged (quote host ctx.range s q.request ctx.now)
  rejectIf (sameQuote fresh q = false) .liquidityChanged

def acceptQuote (A : Arith) (host : Host) (ctx : Context) (q : Quote) (loanID : String)
    (expectedNonce : Nat) (observedPrice : Option Price) (s : State) :
    Except LedgerError State := do
  rejectIf (q.requestID ∈ s.processed) .duplicate
  let s ← observePrice observedPrice ctx.now s
  requireSameQuote host ctx s q
  let a ← consumeNonce (s.account q.borrower) expectedNonce
  rejectIf (a.loanID ≠ "") .oneActiveLoan
  let fxrp := a.balances.fxrp
  rejectIf (fxrp.available < q.collateralFXRP) .insufficientBalance
  let available ← A.sub fxrp.available q.collateralFXRP
  let reserved ← A.add fxrp.reserved q.collateralFXRP
  let a := { a with balances := a.balances.set .fxrp { available, reserved } }
  let s ← q.tranches.foldlM (allocateTranche A) s
  let loan ← updateRisk (q.loan loanID a.owner ctx.now) s.price.xrpUSDE6 ctx.now
  let s := (s.putLoan loanID loan).putAccount q.borrower { a with loanID }
  let activeDebt ← checkedAdd s.activeDebt q.amount
  return { s with activeDebt }.markProcessed q.requestID

/-! ### Risk, repayment and liquidation -/

/-- One round of the loop of `RiskTick`, on the loan filed under `id`. -/
def tickLoan (A : Arith) (ctx : Context) (price : Price) (s : State) (id : String) :
    Except LedgerError State :=
  match s.loans[id]? with
  | none => .ok s
  | some l =>
      if l.isOpen then do
        let l ← accrue l ctx.now
        let l ← updateRisk l price.xrpUSDE6 ctx.now
        let due ← debt l
        let s := s.putLoan id l
        if l.status = .liquidatable ∧ s.backstopUSDT0 ≥ due then
          liquidateInState A s id l
        else
          return s
      else
        .ok s

def riskTick (A : Arith) (ctx : Context) (price : Price) (operationID : String) (s : State) :
    Except LedgerError State := do
  rejectIf (operationID ∈ s.processed) .duplicate
  let s := { s with price }
  let s ← (ctx.range.order s.loans.keys).foldlM (tickLoan A ctx price) s
  return s.markProcessed operationID

def repay (A : Arith) (ctx : Context) (owner : String) (amount : UInt64) (operationID : String)
    (expectedNonce : Nat) (s : State) : Except LedgerError State := do
  rejectIf (operationID ∈ s.processed) .duplicate
  let a ← consumeNonce (s.account owner) expectedNonce
  let l ← orElse .noActiveLoan s.loans[a.loanID]?
  let l ← accrue l ctx.now
  let due ← debt l
  rejectIf (amount < due) .repaymentMustClose
  let bal := a.balances.usdt0
  rejectIf (bal.available < due) .insufficientBalance
  let available ← A.sub bal.available due
  let s := s.putAccount owner
    { a with balances := a.balances.set .usdt0 { bal with available } }
  let interest ← checkedSub due l.principal
  let s ← distributeRepayment s l interest
  -- the distribution may have paid the borrower as one of the lenders
  let b := s.account owner
  let reserved ← A.sub b.balances.fxrp.reserved l.collateralFXRP
  let available ← A.add b.balances.fxrp.available l.collateralFXRP
  let activeDebt ← A.sub s.activeDebt l.principal
  let s := s.putAccount owner
    { b with balances := b.balances.set .fxrp { available, reserved }, loanID := "" }
  let s := s.putLoan a.loanID { l with status := .closed }
  return { s with activeDebt }.markProcessed operationID

def liquidate (A : Arith) (loanID operationID : String) (s : State) :
    Except LedgerError State := do
  rejectIf (operationID ∈ s.processed) .duplicate
  let l ← orElse .notLiquidatable s.loans[loanID]?
  rejectIf (l.status ≠ .liquidatable) .notLiquidatable
  let s ← liquidateInState A s loanID l
  return s.markProcessed operationID

/-! ### Withdrawals -/

/-- `mandatesByCreatedAt`: the keys of the owner's mandates, oldest first and then by id. -/
def mandatesByCreatedAt (range : RangeOrder) (s : State) (owner : String) : List String :=
  let owned := ((range.order s.mandates.keys).filterMap fun id =>
    s.mandates[id]?.map fun m => (id, m)).filter fun e => e.2.lender = toLower owner
  (owned.insertionSort fun e e' =>
    if e.2.createdAt ≠ e'.2.createdAt then e.2.createdAt < e'.2.createdAt
    else ¬ e'.2.id < e.2.id).map Prod.fst

/-- What the first loop of `Withdraw` carries from one mandate to the next. -/
structure Drawing where
  mandates : ExtTreeMap String Mandate
  reserved : UInt64
  remaining : UInt64

/-- One round of that loop. -/
def drawMandate (A : Arith) (d : Drawing) (id : String) : Except LedgerError Drawing :=
  match d.mandates[id]? with
  | none => .ok d
  | some m =>
      if d.remaining = 0 ∨ m.active = false ∨ m.available = 0 then
        .ok d
      else do
        let take := if m.available > d.remaining then d.remaining else m.available
        let available ← A.sub m.available take
        let reserved ← A.sub d.reserved take
        let remaining ← A.sub d.remaining take
        return { mandates := d.mandates.insert id { m with available }, reserved, remaining }

/-- One round of the second loop of `Withdraw`: an empty mandate stops matching. -/
def retireEmpty (mandates : ExtTreeMap String Mandate) (id : String) :
    ExtTreeMap String Mandate :=
  match mandates[id]? with
  | none => mandates
  | some m => mandates.insert id m.retireIfEmpty

/-- Take `amount` from the available balance and then, for USDT0, from the owner's mandates. -/
def drawBalance (A : Arith) (range : RangeOrder) (s : State) (a : Account) (asset : Asset)
    (amount : UInt64) : Except LedgerError (State × Balance) :=
  let bal := a.balances.get asset
  if bal.available ≥ amount then do
    let available ← A.sub bal.available amount
    return (s, { bal with available })
  else do
    let remaining ← A.sub amount bal.available
    rejectIf (asset ≠ .usdt0) .insufficientBalance
    let ids := mandatesByCreatedAt range s a.owner
    let d ← ids.foldlM (drawMandate A)
      { mandates := s.mandates, reserved := bal.reserved, remaining }
    rejectIf (d.remaining > 0) .insufficientBalance
    return ({ s with mandates := ids.foldl retireEmpty d.mandates },
      { available := 0, reserved := d.reserved })

def withdraw (A : Arith) (ctx : Context) (owner : String) (asset : Asset) (amount : UInt64)
    (operationID : String) (expectedNonce : Nat) (s : State) : Except LedgerError State := do
  rejectIf (operationID ∈ s.processed) .duplicate
  let a ← consumeNonce (s.account owner) expectedNonce
  let drawn ← drawBalance A ctx.range s a asset amount
  let s := drawn.1.putAccount owner { a with balances := a.balances.set asset drawn.2 }
  let s := s.markProcessed operationID
  return { s with activities := s.activities ++
    [{ id := operationID, account := a.owner, kind := "withdrawal", asset, amount,
       createdAt := ctx.now }] }

def withdrawFromMandate (A : Arith) (ctx : Context) (owner mandateID : String) (amount : UInt64)
    (operationID : String) (expectedNonce : Nat) (s : State) : Except LedgerError State := do
  rejectIf (operationID ∈ s.processed) .duplicate
  let m ← orElse .mandateUnavailable s.mandates[mandateID]?
  rejectIf (m.lender ≠ toLower owner ∨ m.active = false) .mandateUnavailable
  let a ← consumeNonce (s.account owner) expectedNonce
  rejectIf (m.available < amount) .insufficientBalance
  let bal := a.balances.usdt0
  let reserved ← A.sub bal.reserved amount
  let available ← A.sub m.available amount
  let m := { m with available }
  let m := m.retireIfEmpty
  let s := (s.putAccount owner { a with balances := a.balances.set .usdt0 { bal with reserved } })
  let s := (s.putMandate mandateID m).markProcessed operationID
  return { s with activities := s.activities ++
    [{ id := operationID, account := a.owner, kind := "withdrawal", asset := .usdt0, amount,
       createdAt := ctx.now }] }

end QuietLine
