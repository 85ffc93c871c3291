/-
The data of the confidential ledger (`ledger/model.go`) and its errors.

Amounts are `UInt64` as in the source, so an unchecked addition wraps here where
it wraps there.  Sequence numbers and nonces grow by one per committed mutation
and are `Nat`; times are Unix seconds and are `Int`.  Go maps are `ExtTreeMap`s,
which are equal exactly when they hold the same entries; the order in which Go
enumerates a map is not theirs to know, and is an argument of the code that
enumerates one (`RangeOrder`).
-/
import Mathlib.Data.List.Sort
import Std.Data.ExtTreeMap
import Std.Data.ExtTreeSet
import QuietLine.Library.Bytes

namespace QuietLine

open Std

/-! ### Constants -/

def scale : UInt64 := 1000000
def bps : UInt64 := 10000
def year : UInt64 := 31536000

/-- The two assets; the source spells them `"FXRP"` and `"USDT0"`. -/
inductive Asset where
  | fxrp
  | usdt0
  deriving DecidableEq, Repr

/-! ### Errors -/

/-- What the ledger answers instead of a new state. -/
inductive LedgerError where
  | insufficientBalance
  | insufficientLiquidity
  | duplicate
  | liquidityChanged
  | anchorPending
  | staleNonce (have_ got : Nat)
  | invalidDeposit
  | balanceExceedsUint64
  | invalidMandate
  | mandateUnavailable
  | invalidObservation
  | invalidQuoteRequest
  | stalePrice
  | initialLTV
  | oneActiveLoan
  | noActiveLoan
  | repaymentMustClose
  | notLiquidatable
  | invalidBackstopDeposit
  | backstopExceedsUint64
  | backstopInsufficient
  | missingMandate
  | trancheConservation
  | lenderInterestExceeds
  | noAnchorPending
  | anchorMismatch
  | invalidWithdrawal
  | arithmeticOverflow
  | arithmeticUnderflow
  | divisionByZero
  | zeroPrincipalAverage
  | storeFailure
  /-- `fmt.Errorf("context: %w", cause)`. -/
  | wrap (context : String) (cause : LedgerError)
  /-- Never an answer of the code: where its arithmetic wraps, the trapping twin stops here. -/
  | wraparound
  deriving DecidableEq, Repr

/-- The text of an error. -/
def LedgerError.message : LedgerError → String
  | insufficientBalance => "insufficient private balance"
  | insufficientLiquidity => "no eligible private lender liquidity for this request"
  | duplicate => "operation already processed"
  | liquidityChanged => "liquidity changed; request a new quote"
  | anchorPending => "previous confidential mutation is awaiting on-chain anchor"
  | staleNonce have_ got =>
      "stale or future account nonce: expected " ++ toString have_ ++ ", got " ++ toString got
  | invalidDeposit => "invalid deposit"
  | balanceExceedsUint64 => "private balance exceeds uint64"
  | invalidMandate => "invalid mandate"
  | mandateUnavailable => "mandate unavailable"
  | invalidObservation => "invalid or stale FTSO observation"
  | invalidQuoteRequest => "invalid quote request"
  | stalePrice => "FTSO price is stale"
  | initialLTV => "initial LTV exceeds 50%"
  | oneActiveLoan => "one active loan per account"
  | noActiveLoan => "no active loan"
  | repaymentMustClose => "hackathon repayment must close the loan"
  | notLiquidatable => "loan is not liquidatable"
  | invalidBackstopDeposit => "invalid backstop deposit"
  | backstopExceedsUint64 => "backstop balance exceeds uint64"
  | backstopInsufficient => "backstop insufficient"
  | missingMandate => "loan references missing mandate"
  | trancheConservation => "tranche conservation failure"
  | lenderInterestExceeds => "lender interest exceeds borrower interest"
  | noAnchorPending => "no anchor is pending"
  | anchorMismatch => "anchor confirmation does not match pending state"
  | invalidWithdrawal => "invalid withdrawal"
  | arithmeticOverflow => "confidential arithmetic exceeds uint64"
  | arithmeticUnderflow => "confidential arithmetic underflow"
  | divisionByZero => "division by zero"
  | zeroPrincipalAverage => "cannot average zero principal"
  | storeFailure => "store failure"
  | wrap context cause => context ++ ": " ++ cause.message
  | wraparound => "wraparound"

/-! ### Balances and accounts -/

structure Balance where
  available : UInt64 := 0
  reserved : UInt64 := 0
  deriving DecidableEq, Repr

/-- `map[string]Balance`, read and written at the two asset names only. -/
structure Balances where
  fxrp : Balance := {}
  usdt0 : Balance := {}
  deriving DecidableEq, Repr

def Balances.get (b : Balances) : Asset → Balance
  | .fxrp => b.fxrp
  | .usdt0 => b.usdt0

def Balances.set (b : Balances) (asset : Asset) (v : Balance) : Balances :=
  match asset with
  | .fxrp => { b with fxrp := v }
  | .usdt0 => { b with usdt0 := v }

@[simp] theorem Balances.get_fxrp (b : Balances) : b.get .fxrp = b.fxrp := rfl
@[simp] theorem Balances.get_usdt0 (b : Balances) : b.get .usdt0 = b.usdt0 := rfl
@[simp] theorem Balances.set_fxrp (b : Balances) (v : Balance) :
    b.set .fxrp v = { b with fxrp := v } := rfl
@[simp] theorem Balances.set_usdt0 (b : Balances) (v : Balance) :
    b.set .usdt0 v = { b with usdt0 := v } := rfl

@[simp] theorem Balances.get_set_self (b : Balances) (asset : Asset) (v : Balance) :
    (b.set asset v).get asset = v := by
  cases asset <;> rfl

theorem Balances.get_set_ne (b : Balances) {asset asset' : Asset} (v : Balance)
    (h : asset ≠ asset') : (b.set asset v).get asset' = b.get asset' := by
  cases asset <;> cases asset' <;> first | rfl | exact absurd rfl h

structure Account where
  owner : String
  nonce : Nat := 0
  balances : Balances := {}
  loanID : String := ""
  deriving DecidableEq, Repr

/-- `strings.ToLower`; every owner the ledger is given is an ASCII address. -/
def toLower (text : String) : String := String.ofList (text.toList.map Char.toLower)

@[simp] theorem toLower_toLower (text : String) : toLower (toLower text) = toLower text := by
  have hupper : ∀ c : Char, c.val ≥ 'A'.val ∧ c.val ≤ 'Z'.val →
      c.toLower.val = c.val + ('a'.val - 'A'.val) := fun c h => congrArg Char.val (dif_pos h)
  have hother : ∀ c : Char, ¬ (c.val ≥ 'A'.val ∧ c.val ≤ 'Z'.val) → c.toLower = c :=
    fun c h => dif_neg h
  have hchar : ∀ c : Char, c.toLower.toLower = c.toLower := by
    intro c
    by_cases h : c.val ≥ 'A'.val ∧ c.val ≤ 'Z'.val
    · -- an upper-case letter moves out of the range that `Char.toLower` changes
      refine hother c.toLower ?_
      rw [hupper c h]
      grind
    · rw [hother c h, hother c h]
  simp [toLower, List.map_map, Function.comp_def, hchar]

/-! ### Mandates and loans -/

structure Mandate where
  id : String
  lender : String
  available : UInt64
  minAPRBPS : UInt32
  termMask : UInt8
  perBorrowerCap : UInt64
  active : Bool
  createdAt : Int
  allocatedPrincipal : UInt64 := 0
  interestEarned : UInt64 := 0
  deriving DecidableEq, Repr

structure Tranche where
  mandateID : String
  lender : String
  principal : UInt64
  aprBPS : UInt32
  deriving DecidableEq, Repr

inductive LoanStatus where
  | healthy
  | restricted
  | warning
  | liquidatable
  | closed
  | liquidated
  deriving DecidableEq, Repr

structure Loan where
  id : String
  borrower : String
  principal : UInt64
  collateralFXRP : UInt64
  borrowerAPRBPS : UInt32
  termDays : UInt16
  startedAt : Int
  maturesAt : Int
  lastAccruedAt : Int
  accruedInterestRay : UInt64 := 0
  tranches : List Tranche
  status : LoanStatus
  lastHealthFactorBPS : UInt64 := 0
  liquidationPriceE6 : UInt64 := 0
  deriving DecidableEq, Repr

/-- `l.Status != "closed" && l.Status != "liquidated"`. -/
def Loan.isOpen (l : Loan) : Bool := l.status != .closed && l.status != .liquidated

/-! ### Quotes, prices and anchors -/

structure QuoteRequest where
  id : String
  borrower : String
  amount : UInt64
  termDays : UInt16
  maxAPRBPS : UInt32
  collateralFXRP : UInt64
  expiresAt : Int
  deriving DecidableEq, Repr

structure Quote where
  requestID : String
  borrower : String
  amount : UInt64
  requestedAmount : UInt64
  termDays : UInt16
  collateralFXRP : UInt64
  requestedCollateralFXRP : UInt64
  isPartial : Bool
  lenderAPRBPS : UInt32
  borrowerAPRBPS : UInt32
  maxAPRBPS : UInt32
  tranches : List Tranche
  expiresAt : Int
  priceE6 : UInt64
  deriving DecidableEq, Repr

structure Price where
  xrpUSDE6 : UInt64 := 0
  updatedAt : Int := 0
  deriving DecidableEq, Repr

structure Activity where
  id : String
  account : String
  kind : String
  asset : Asset
  amount : UInt64
  createdAt : Int
  deriving DecidableEq, Repr

/-- The kinds of mutation, which the source writes as the `kind` strings it passes to `mutate`. -/
inductive OpKind where
  | openAccount
  | deposit
  | setMandate
  | cancelMandate
  | borrowAccept
  | riskTick
  | applyRepayment
  | liquidate
  | backstopDeposit
  | withdrawRequest
  | withdrawFromMandate
  deriving DecidableEq, Repr

def OpKind.label : OpKind → String
  | openAccount => "OPEN_ACCOUNT"
  | deposit => "DEPOSIT"
  | setMandate => "SET_MANDATE"
  | cancelMandate => "CANCEL_MANDATE"
  | borrowAccept => "BORROW_ACCEPT"
  | riskTick => "RISK_TICK"
  | applyRepayment => "APPLY_REPAYMENT"
  | liquidate => "LIQUIDATE"
  | backstopDeposit => "BACKSTOP_DEPOSIT"
  | withdrawRequest => "WITHDRAW_REQUEST"
  | withdrawFromMandate => "WITHDRAW_FROM_MANDATE"

structure PendingAnchor where
  kind : OpKind
  operationID : String
  previousSequence : Nat
  nextSequence : Nat
  previousRoot : String
  nextRoot : String
  deriving DecidableEq, Repr

/-! ### The state -/

structure State where
  version : UInt8 := 2
  sequence : Nat := 0
  root : String := ""
  accounts : ExtTreeMap String Account := ∅
  mandates : ExtTreeMap String Mandate := ∅
  loans : ExtTreeMap String Loan := ∅
  processed : ExtTreeSet String := ∅
  activities : List Activity := []
  price : Price := {}
  activeDebt : UInt64 := 0
  protocolReserve : UInt64 := 0
  backstopUSDT0 : UInt64 := 0
  backstopFXRP : UInt64 := 0
  pendingAnchor : Option PendingAnchor := none

/-- `NewState()`. -/
def newState : State := {}

/-- The entry of the account map for `owner`, or the fresh account `account` would add. -/
def State.account (s : State) (owner : String) : Account :=
  (s.accounts[toLower owner]?).getD { owner := toLower owner }

/-- Write `a` back as the account of `owner`. -/
def State.putAccount (s : State) (owner : String) (a : Account) : State :=
  { s with accounts := s.accounts.insert (toLower owner) a }

def State.putMandate (s : State) (id : String) (m : Mandate) : State :=
  { s with mandates := s.mandates.insert id m }

def State.putLoan (s : State) (id : String) (l : Loan) : State :=
  { s with loans := s.loans.insert id l }

/-- `s.Processed[operationID] = true`. -/
def State.markProcessed (s : State) (operationID : String) : State :=
  { s with processed := s.processed.insert operationID }

/-- `termBit`. -/
def termBit (days : UInt16) : UInt8 :=
  if days = 7 then 1 else if days = 14 then 2 else if days = 30 then 4 else 0

/-! ### What the ledger takes from the Go library -/

/-- `crypto/sha256`, and `encoding/json` on the state. -/
structure Host where
  sha256 : List UInt8 → Bytes.Fixed 32
  marshalState : State → List UInt8

/-- The order in which one `range` over a map visits its keys: any permutation of them. -/
structure RangeOrder where
  order : List String → List String
  perm : ∀ keys, (order keys).Perm keys

/-- The keys in increasing order. -/
def RangeOrder.sorted : RangeOrder := ⟨id, fun _ => List.Perm.refl _⟩

end QuietLine
