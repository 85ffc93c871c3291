/-
The handlers of the extension (`extension/handlers.go`, `settlement.go`,
`anchor.go`, `deposit_recovery.go`, `extension.go`).

Each definition follows the Go function of its name, statement by statement: an
error leaves the handler, and every step that other parts of the system can run
between is a request.  A mutation and the settlement that anchors it are two
requests apart, and the settlement is drawn up from whatever anchor the engine
has pending when the state is read again.
-/
import QuietLine.Extension.Crypto

namespace QuietLine

open Handler

/-! ### Messages of the vault -/

/-- `amount.IsUint64()`. -/
def amountUint64 (amount : Nat) : Except HandlerError UInt64 := do
  Outcome.rejectIf (amount ≥ 2 ^ 64) .amountExceedsUint64
  return UInt64.ofNat amount

def decodeDeposit (msg : List UInt8) :
    Except HandlerError (Address × Address × UInt64 × Hash) := do
  let sender ← Outcome.orElse .malformedMessage (Abi.addressAt 0 msg)
  let token ← Outcome.orElse .malformedMessage (Abi.addressAt 1 msg)
  let amount ← Outcome.orElse .malformedMessage (Abi.uintAt 2 msg)
  let depositID ← Outcome.orElse .malformedMessage (Abi.wordAt 3 msg)
  let amount ← amountUint64 amount
  return (sender, token, amount, depositID)

def decodeBorrow (msg : List UInt8) :
    Except HandlerError (Address × List UInt8 × UInt64 × UInt64) := do
  let sender ← Outcome.orElse .malformedMessage (Abi.addressAt 0 msg)
  let ciphertext ← Outcome.orElse .malformedMessage (Abi.bytesAt 1 msg)
  let priceE6 ← Outcome.orElse .malformedMessage (Abi.uint64At 2 msg)
  let timestamp ← Outcome.orElse .malformedMessage (Abi.uint64At 3 msg)
  return (sender, ciphertext, priceE6, timestamp)

def decodeWithdrawal (msg : List UInt8) :
    Except HandlerError (Address × Address × UInt64 × Address) := do
  let sender ← Outcome.orElse .malformedMessage (Abi.addressAt 0 msg)
  let token ← Outcome.orElse .malformedMessage (Abi.addressAt 1 msg)
  let amount ← Outcome.orElse .malformedMessage (Abi.uintAt 2 msg)
  let destination ← Outcome.orElse .malformedMessage (Abi.addressAt 3 msg)
  let amount ← amountUint64 amount
  return (sender, token, amount, destination)

def decodeRisk (msg : List UInt8) : Except HandlerError (UInt64 × UInt64) := do
  let price ← Outcome.orElse .malformedMessage (Abi.uint64At 0 msg)
  let timestamp ← Outcome.orElse .malformedMessage (Abi.uint64At 1 msg)
  return (price, timestamp)

def decodeBackstopDeposit (msg : List UInt8) : Except HandlerError (Address × UInt64 × Hash) := do
  let funder ← Outcome.orElse .malformedMessage (Abi.addressAt 0 msg)
  let amount ← Outcome.orElse .malformedMessage (Abi.uintAt 1 msg)
  let depositID ← Outcome.orElse .malformedMessage (Abi.wordAt 2 msg)
  let amount ← amountUint64 amount
  return (funder, amount, depositID)

/-- `assetForToken`. -/
def assetForToken (cfg : Config) (token : Address) : Except HandlerError String :=
  if token = cfg.fxrp then .ok "FXRP"
  else if token = cfg.usdt0 then .ok "USDT0"
  else .error .unsupportedAsset

/-- `int64(timestamp)`. -/
def observedPrice (priceE6 timestamp : UInt64) : Price :=
  { xrpUSDE6 := priceE6, updatedAt := timestamp.toInt64.toInt }

/-! ### Settlements -/

/-- What a settlement pays; the arguments of `anchorSettlement`. -/
structure Payout where
  settlementType : SettlementType
  account : Address
  token : Address
  amount : UInt64
  destination : Address
  deriving DecidableEq

/-- What `checkpoint` passes. -/
def Payout.checkpoint (account : Address) : Payout :=
  { settlementType := .checkpoint, account, token := Address.zero, amount := 0,
    destination := Address.zero }

/-- The settlement `anchorSettlement` draws up for a pending anchor. -/
def PendingAnchor.settlement (keccak : Keccak) (pending : PendingAnchor) (requestID : Hash)
    (payout : Payout) (now : Int) : Settlement :=
  let nextRoot := hexToHash pending.nextRoot
  { settlementType := payout.settlementType
    account := payout.account
    token := payout.token
    amount := payout.amount.toNat
    destination := payout.destination
    requestID
    settlementID := keccak (requestID.toList ++ nextRoot.toList ++ Bytes.utf8 pending.kind.label)
    previousSequence := pending.previousSequence
    nextSequence := pending.nextSequence
    previousRoot := hexToHash pending.previousRoot
    nextRoot
    deadline := (unixUint64 (now + 600)).toNat }

section Programs

variable (P : Platform) (cfg : Config)

def anchorSettlement (requestID : Hash) (payout : Payout) : Handler Settlement := do
  let state ← perform (.state .settlement)
  let pending ← orElse .noAnchorProduced state.pendingAnchor
  let now ← perform .clock
  let settlement := pending.settlement P.keccak256 requestID payout now
  let signed ← perform (.sign settlement)
  rejectIf (signed = false) .signing
  return settlement

def checkpoint (requestID : Hash) (account : Address) : Handler Settlement :=
  anchorSettlement P requestID (Payout.checkpoint account)

/-- The liquidity check before a withdrawal, from the cached balance of the vault. -/
def requireLiquidity (token : Address) (amount : UInt64) : Handler Unit := do
  let balance ← perform (.vaultLiquidity token)
  let balance ← orElse .liquidityUnknown balance
  rejectIf (balance < amount) (.insufficientVaultLiquidity balance amount)

/-! ### Instructions of the vault -/

def handleDeposit (action : Action) (df : DataFixed) : Handler Reply := do
  let (sender, token, amount, depositID) ← attempt (decodeDeposit df.originalMessage)
  let asset ← attempt (assetForToken cfg token)
  operate (.deposit (sender.hex P.keccak256) asset amount depositID.hex)
  let anchor ← checkpoint P action.id sender
  return .mutation anchor

def handleBorrowAccept (action : Action) (df : DataFixed) : Handler Reply := do
  let (sender, ciphertext, priceE6, timestamp) ← attempt (decodeBorrow df.originalMessage)
  let plain ← orElse .decryption (P.decrypt ciphertext)
  let req ← orElse .malformedMessage (P.signedAction plain)
  rejectIf (req.sender ≠ sender) .senderMismatch
  verifySignedAction P cfg req (Bytes.utf8 "BORROW_ACCEPT")
  let payload ← orElse .malformedPayload (P.borrowAcceptPayload req.payload)
  let quote := { payload.quote with borrower := sender.hex P.keccak256 }
  operate (.acceptQuote quote payload.loanID req.nonce.toNat
    (some (observedPrice priceE6 timestamp)))
  let anchor ← anchorSettlement P action.id
    { settlementType := .borrowPayout, account := sender, token := cfg.usdt0,
      amount := payload.quote.amount, destination := sender }
  return .anchor anchor

def handleWithdrawal (action : Action) (df : DataFixed) : Handler Reply := do
  let (sender, token, amount, destination) ← attempt (decodeWithdrawal df.originalMessage)
  let asset ← attempt (assetForToken cfg token)
  -- an unpayable withdrawal is refused before it can leave an anchor pending
  requireLiquidity token amount
  let state ← perform (.state .withdrawal)
  let account ← orElse .noAccount state.accounts[lower P.keccak256 sender]?
  operate (.withdraw (sender.hex P.keccak256) asset amount action.id.hex account.nonce)
  let anchor ← anchorSettlement P action.id
    { settlementType := .userWithdrawal, account := sender, token, amount, destination }
  return .anchor anchor

def handleRiskTick (action : Action) (df : DataFixed) : Handler Reply := do
  let (price, timestamp) ← attempt (decodeRisk df.originalMessage)
  operate (.riskTick (observedPrice price timestamp) action.id.hex)
  let anchor ← checkpoint P action.id Address.zero
  return .anchor anchor

def handleBackstopDeposit (action : Action) (df : DataFixed) : Handler Reply := do
  let (funder, amount, depositID) ← attempt (decodeBackstopDeposit df.originalMessage)
  operate (.seedBackstop amount depositID.hex)
  let anchor ← checkpoint P action.id funder
  return .mutation anchor

/-! ### Signed direct actions -/

/-- The mandates of a lender, in the order of the `range` over the map. -/
def State.lenderMandates (s : State) (range : RangeOrder) (lender : String) : List Mandate :=
  (s.rangeMandates range).filter fun m => m.lender = lender

/-- `accountView`; the caller decides what to make of its error. -/
def accountView (sender : Address) : Handler (Except HandlerError AccountView) := do
  let state ← perform (.state .view)
  let range ← perform .rangeOrder
  let owner := lower P.keccak256 sender
  return match state.accounts[owner]? with
    | none => .error .noAccount
    | some account => .ok {
        account
        loan := if account.loanID ≠ "" then state.loans[account.loanID]? else none
        mandates := state.lenderMandates range owner
        activities := state.activities.filter fun item => item.account = owner
        price := state.price }

/-- The figures of `stressView`, on the loan it found. -/
def stressFigures (loan : Loan) (price : UInt64) (now : Int) : Except HandlerError StressView := do
  let elapsed : UInt64 :=
    if now > loan.lastAccruedAt then UInt64.ofNat (now - loan.lastAccruedAt).toNat else 0
  let apr : UInt64 := UInt64.ofNat loan.borrowerAPRBPS.toNat
  let apr := if now > int64 (loan.maturesAt + 86400) then apr + 300 else apr
  let debt := loan.principal +
    (loan.accruedInterestRay + loan.principal * apr * elapsed * scale / (bps * year)) / scale
  let value := loan.collateralFXRP * price / scale
  Outcome.rejectIf (value = 0) .zeroCollateralValue
  let ltv := debt * bps / value
  let health := if ltv > 0 then 6500 * bps / ltv else 0
  let status : LoanStatus :=
    if ltv ≥ 6500 then .liquidatable
    else if ltv ≥ 5500 then .warning
    else if ltv ≥ 5000 then .restricted
    else .healthy
  return { xrpUSDE6 := price, debt, collateralValue := value, ltvBPS := ltv,
           healthFactorBPS := health, status }

def stressView (sender : Address) (price : UInt64) : Handler StressView := do
  let view ← accountView P sender
  let loan ← orElse .noActiveLoan (view.toOption.bind AccountView.loan)
  let now ← perform .clock
  attempt (stressFigures loan price now)

/-- `isMutation`. -/
def isMutation (action : String) : Bool :=
  action = "OPEN_ACCOUNT" || action = "SET_MANDATE" || action = "CANCEL_MANDATE" ||
    action = "APPLY_REPAYMENT"

/-- What a branch of the `switch` leaves: the private answer, and the settlement it anchored. -/
abbrev Performed := PrivateView × Option Settlement

def performOpenAccount (req : SignedAction) : Handler Performed := do
  let p ← orElse .malformedPayload (P.openAccountPayload req.payload)
  operate (.openAccount (req.sender.hex P.keccak256) p.operationID req.nonce.toNat)
  return (.none, none)

def performSetMandate (req : SignedAction) : Handler Performed := do
  let p ← orElse .malformedPayload (P.setMandatePayload req.payload)
  operate (.setMandate (req.sender.hex P.keccak256) p.mandateID p.amount p.minAPRBPS p.termMask
    p.perBorrowerCap req.nonce.toNat)
  return (.none, none)

def performCancelMandate (req : SignedAction) : Handler Performed := do
  let p ← orElse .malformedPayload (P.cancelMandatePayload req.payload)
  operate (.cancelMandate (req.sender.hex P.keccak256) p.mandateID req.nonce.toNat)
  return (.none, none)

def performWithdrawFromMandate (action : Action) (req : SignedAction) : Handler Performed := do
  let p ← orElse .malformedPayload (P.withdrawFromMandatePayload req.payload)
  requireLiquidity cfg.usdt0 p.amount
  operate (.withdrawFromMandate (req.sender.hex P.keccak256) p.mandateID p.amount action.id.hex
    req.nonce.toNat)
  let anchor ← anchorSettlement P action.id
    { settlementType := .userWithdrawal, account := req.sender, token := cfg.usdt0,
      amount := p.amount, destination := p.destination }
  return (.none, some anchor)

def performQuoteRequest (req : SignedAction) : Handler Performed := do
  let p ← orElse .malformedPayload (P.quotePayload req.payload)
  let p := { p with borrower := req.sender.hex P.keccak256 }
  let price ← perform .currentXrpUsdPrice
  let price ← orElse .priceUnavailable price
  let quoted ← perform (.quoteAtPrice p price)
  let quoted ← attempt (ofLedger quoted)
  return (.quote quoted, none)

def performApplyRepayment (req : SignedAction) : Handler Performed := do
  let p ← orElse .malformedPayload (P.repaymentPayload req.payload)
  operate (.repay (req.sender.hex P.keccak256) p.amount p.operationID req.nonce.toNat)
  return (.none, none)

def performAccountQuery (req : SignedAction) : Handler Performed := do
  let view ← accountView P req.sender
  let view ← attempt view
  return (.account view, none)

def performStressQuery (req : SignedAction) : Handler Performed := do
  let p ← orElse .malformedPayload (P.stressQueryPayload req.payload)
  let view ← stressView P req.sender p.xrpUSDE6
  return (.stress view, none)

/-- The `switch` of `handleSignedDirect`. -/
def performAction (action : Action) (req : SignedAction) : Handler Performed :=
  if req.action = "OPEN_ACCOUNT" then performOpenAccount P req
  else if req.action = "SET_MANDATE" then performSetMandate P req
  else if req.action = "CANCEL_MANDATE" then performCancelMandate P req
  else if req.action = "WITHDRAW_FROM_MANDATE" then performWithdrawFromMandate P cfg action req
  else if req.action = "QUOTE_REQUEST" then performQuoteRequest P req
  else if req.action = "APPLY_REPAYMENT" then performApplyRepayment P req
  else if req.action = "ACCOUNT_QUERY" then performAccountQuery P req
  else if req.action = "STRESS_QUERY" then performStressQuery P req
  else throw (.unsupportedDirectAction req.action)

/-- The generic checkpoint after the `switch`. -/
def anchorMutation (action : Action) (req : SignedAction) (anchor : Option Settlement) :
    Handler (Option Settlement) :=
  if isMutation req.action then do
    let anchor ← checkpoint P action.id req.sender
    return some anchor
  else
    return anchor

def handleSignedDirect (action : Action) (req : SignedAction) : Handler Reply := do
  let (view, anchor) ← performAction P cfg action req
  let anchor ← anchorMutation P action req anchor
  let ciphertext ← orElse .responseEncryption
    (P.encrypt (P.marshalView view) req.responsePublicKey)
  return .secure anchor ciphertext

/-! ### Confirmation and recovery -/

/-- The two chain reads of `verifyAnchorOnChain`, which run beside each other. -/
def readAnchorState : Handler (Option (List UInt8) × Option (List UInt8)) := do
  let sequenceFirst ← perform .sequenceFirst
  if sequenceFirst then do
    let sequence ← perform (.callVault .stateSequence)
    let root ← perform (.callVault .stateRoot)
    return (sequence, root)
  else do
    let root ← perform (.callVault .stateRoot)
    let sequence ← perform (.callVault .stateSequence)
    return (sequence, root)

/-- What it makes of them. -/
def checkAnchorState (sequence : UInt64) (root : String)
    (read : Option (List UInt8) × Option (List UInt8)) : Except HandlerError Unit := do
  let sequenceRaw ← Outcome.orElse .chainUnreachable read.1
  let rootRaw ← Outcome.orElse .chainUnreachable read.2
  Outcome.rejectIf (sequenceRaw.length ≠ 32 ∨ rootRaw.length ≠ 32) .malformedAnchorState
  Outcome.rejectIf (Bytes.ofBigEndian sequenceRaw ≠ sequence.toNat) .sequenceMismatch
  Outcome.rejectIf (Bytes.Fixed.ofList 32 rootRaw ≠ hexToHash root) .rootMismatch

def handleAnchorConfirmation (message : List UInt8) : Handler Reply := do
  let payload ← orElse .malformedPayload (P.anchorConfirmedPayload message)
  let read ← readAnchorState
  attempt (checkAnchorState payload.sequence payload.root read)
  let answer ← perform (.confirmAnchor payload.sequence.toNat payload.root)
  attempt (ofLedger answer)
  return .confirmed

/-- `isRecoverableCheckpoint`. -/
def OpKind.recoverable : OpKind → Bool
  | .riskTick | .deposit | .backstopDeposit | .openAccount | .setMandate | .cancelMandate
  | .applyRepayment => true
  | _ => false

def handleAnchorRecovery (action : Action) : Handler Reply := do
  let state ← perform (.state .recovery)
  let pending ← orElse .noAnchorPending state.pendingAnchor
  rejectIf (pending.kind.recoverable = false) .fundMovementPending
  let anchor ← checkpoint P action.id Address.zero
  return .anchor anchor

/-- What the vault's `depositById` returns for a record, and how the extension reads it. -/
def packDepositRecord (record : DepositRecord) : List UInt8 :=
  Bytes.pack [Abi.addressWord record.account, Abi.addressWord record.token,
    Abi.uintWord record.amount, Abi.uintWord record.submittedAt.toNat]

def unpackDepositRecord (output : List UInt8) : Option DepositRecord := do
  let account ← Abi.addressAt 0 output
  let token ← Abi.addressAt 1 output
  let amount ← Abi.uintAt 2 output
  let submittedAt ← Abi.uint64At 3 output
  return { account, token, amount, submittedAt }

/-- What `verifyDepositRecord` makes of the record. -/
def checkDepositRecord (payload : RecoverDepositPayload) (record : DepositRecord) :
    Except HandlerError Unit := do
  Outcome.rejectIf (record.amount ≥ 2 ^ 64 ∨ record.submittedAt = 0) .invalidDepositRecord
  Outcome.rejectIf (record.account ≠ payload.account ∨ record.token ≠ payload.token ∨
    record.amount ≠ payload.amount.toNat) .depositMismatch

def verifyDepositRecord (payload : RecoverDepositPayload) : Handler Unit := do
  rejectIf (payload.depositID = Hash.zero ∨ payload.account = Address.zero ∨
    payload.token = Address.zero ∨ payload.amount = 0) .invalidRecoveryPayload
  let output ← perform (.callVault (.depositById payload.depositID))
  let output ← orElse .chainUnreachable output
  let record ← orElse .invalidDepositRecord (unpackDepositRecord output)
  attempt (checkDepositRecord payload record)

/-- `errors.Is(err, ledger.ErrDuplicate)`. -/
def LedgerError.isDuplicate : LedgerError → Bool
  | .duplicate => true
  | .wrap _ cause => cause.isDuplicate
  | _ => false

def handleDepositRecovery (action : Action) (message : List UInt8) : Handler Reply := do
  let payload ← orElse .malformedPayload (P.recoverDepositPayload message)
  verifyDepositRecord payload
  let asset ← attempt (assetForToken cfg payload.token)
  let answer ← perform (.mutate (.deposit (payload.account.hex P.keccak256) asset payload.amount
    payload.depositID.hex))
  match answer with
  | .ok () => do
      let anchor ← checkpoint P action.id payload.account
      return .mutation anchor
  | .error cause =>
      if cause.isDuplicate then return .alreadyProcessed else throw (.ledger cause)

/-! ### Dispatch -/

def processInstruction (action : Action) : Handler Reply := do
  let df ← orElse .badRequest (P.dataFixed action.message)
  rejectIf (df.opType ≠ toHash "CREDIT") .unsupportedOpType
  if df.opCommand = toHash "DEPOSIT" then handleDeposit P cfg action df
  else if df.opCommand = toHash "BORROW_ACCEPT" then handleBorrowAccept P cfg action df
  else if df.opCommand = toHash "WITHDRAW_REQUEST" then handleWithdrawal P cfg action df
  else if df.opCommand = toHash "RISK_TICK" then handleRiskTick P action df
  else if df.opCommand = toHash "BACKSTOP_DEPOSIT" then handleBackstopDeposit P action df
  else throw .unsupportedOpCommand

/-- The end of `processDirect`: a ciphertext that carries a signed action. -/
def processSigned (action : Action) (di : DirectInstruction) : Handler Reply := do
  let plain ← orElse .decryption (P.decrypt di.message)
  let req ← orElse .malformedMessage (P.signedAction plain)
  verifySignedAction P cfg req (hashString di.opCommand)
  handleSignedDirect P cfg action req

def processDirect (action : Action) : Handler Reply := do
  let di ← orElse .badRequest (P.directInstruction action.message)
  rejectIf (di.opType ≠ toHash "CREDIT") .unsupportedOpType
  if di.opCommand = toHash "ANCHOR_CONFIRMED" then handleAnchorConfirmation P di.message
  else if di.opCommand = toHash "RECOVER_ANCHOR" then handleAnchorRecovery P action
  else if di.opCommand = toHash "RECOVER_DEPOSIT" then handleDepositRecovery P cfg action di.message
  else processSigned P cfg action di

def processAction (action : Action) : Handler Reply :=
  match action.actionType with
  | .instruction => processInstruction P cfg action
  | .direct => processDirect P cfg action
  | .other => throw .unsupportedActionType

end Programs

end QuietLine
