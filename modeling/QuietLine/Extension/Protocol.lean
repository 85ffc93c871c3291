/-
What the extension is sent, what it asks of its surroundings, and what it answers
(`pkg/types`, `config`).

A handler is a process.  Between two of its requests any other handler may run,
the vault may execute a settlement and time may pass; within one request nothing
does, because the request is one call of the engine under its lock, one read of
the clock or of a cache, one call of the chain, or one signature.
-/
import QuietLine.Chain.Vault
import QuietLine.Ledger.Engine
import QuietLine.Library.Process

namespace QuietLine

/-! ### Messages -/

inductive ActionType where
  | instruction
  | direct
  | other
  deriving DecidableEq, Repr

/-- `teetypes.Action`, as far as the extension reads it. -/
structure Action where
  id : Hash
  actionType : ActionType
  message : List UInt8
  deriving DecidableEq

/-- `instruction.DataFixed`. -/
structure DataFixed where
  opType : Hash
  opCommand : Hash
  originalMessage : List UInt8
  deriving DecidableEq

/-- `teetypes.DirectInstruction`. -/
structure DirectInstruction where
  opType : Hash
  opCommand : Hash
  message : List UInt8
  deriving DecidableEq

structure SignedAction where
  sender : Address
  nonce : UInt64
  deadline : UInt64
  action : String
  payload : List UInt8
  responsePublicKey : List UInt8
  signature : List UInt8
  deriving DecidableEq

structure OpenAccountPayload where
  operationID : String

structure SetMandatePayload where
  mandateID : String
  amount : UInt64
  minAPRBPS : UInt32
  termMask : UInt8
  perBorrowerCap : UInt64

structure CancelMandatePayload where
  mandateID : String

structure WithdrawFromMandatePayload where
  mandateID : String
  amount : UInt64
  destination : Address

structure BorrowAcceptPayload where
  quote : Quote
  loanID : String

structure RepaymentPayload where
  amount : UInt64
  operationID : String

structure StressQueryPayload where
  xrpUSDE6 : UInt64

structure AnchorConfirmedPayload where
  sequence : UInt64
  root : String

structure RecoverDepositPayload where
  depositID : Hash
  account : Address
  token : Address
  amount : UInt64

/-! ### Answers -/

structure AccountView where
  account : Account
  loan : Option Loan
  mandates : List Mandate
  activities : List Activity
  price : Price

structure StressView where
  xrpUSDE6 : UInt64
  debt : UInt64
  collateralValue : UInt64
  ltvBPS : UInt64
  healthFactorBPS : UInt64
  status : LoanStatus

/-- What a direct action answers its sender, besides the settlement. -/
inductive PrivateView where
  | none
  | quote (q : Quote)
  | account (view : AccountView)
  | stress (view : StressView)

inductive Reply where
  /-- `MutationResponse`. -/
  | mutation (anchor : Settlement)
  /-- `SettlementResponse`. -/
  | anchor (settlement : Settlement)
  /-- `SecureResponse`. -/
  | secure (anchor : Option Settlement) (ciphertext : List UInt8)
  | confirmed
  | alreadyProcessed
  deriving DecidableEq

/-- What a handler answers instead. -/
inductive HandlerError where
  | badRequest
  | unsupportedActionType
  | unsupportedOpType
  | unsupportedOpCommand
  | malformedMessage
  | malformedPayload
  | amountExceedsUint64
  | unsupportedAsset
  | decryption
  | senderMismatch
  | actionMismatch (expected : List UInt8)
  | actionExpired
  | invalidResponseKey
  | signatureLength
  | signerRecovery
  | signatureMismatch
  | noAccount
  | nonceMismatch (expected : Nat)
  | liquidityUnknown
  | insufficientVaultLiquidity (available requested : UInt64)
  | unsupportedDirectAction (action : String)
  | priceUnavailable
  | noActiveLoan
  | zeroCollateralValue
  | noAnchorProduced
  | signing
  | noAnchorPending
  | fundMovementPending
  | chainUnreachable
  | malformedAnchorState
  | sequenceMismatch
  | rootMismatch
  | invalidRecoveryPayload
  | invalidDepositRecord
  | depositMismatch
  | responseEncryption
  | ledger (cause : LedgerError)
  deriving DecidableEq

/-- The text of an error the extension makes itself.  There is none where it passes on the error of
a library or of a service, or quotes raw bytes. -/
def HandlerError.message : HandlerError → Option String
  | unsupportedActionType => "unsupported action type"
  | unsupportedOpType => "unsupported op type"
  | unsupportedOpCommand => "unsupported instruction op command"
  | amountExceedsUint64 => "amount exceeds uint64"
  | unsupportedAsset => "unsupported asset"
  | senderMismatch => "encrypted acceptance sender does not match transaction sender"
  | actionExpired => "signed action expired"
  | invalidResponseKey => "response public key must be uncompressed secp256k1"
  | signatureLength => "signature must be 65 bytes"
  | signatureMismatch => "signature does not match sender"
  | noAccount => "private account does not exist"
  | nonceMismatch expected => "account nonce mismatch: expected " ++ toString expected
  | liquidityUnknown => "vault liquidity is currently unknown; withdrawal refused, retry shortly"
  | insufficientVaultLiquidity available requested =>
      "insufficient vault liquidity for withdrawal: " ++ toString available ++ " available, " ++
        toString requested ++ " requested"
  | unsupportedDirectAction action => "unsupported direct action " ++ action
  | noActiveLoan => "no active loan"
  | zeroCollateralValue => "stress price produces zero collateral value"
  | noAnchorProduced => "mutation did not produce a pending anchor"
  | noAnchorPending => "no confidential anchor is pending"
  | fundMovementPending => "pending fund-movement anchor requires operator intervention"
  | malformedAnchorState => "vault returned malformed anchor state"
  | sequenceMismatch => "vault sequence does not match confirmation"
  | rootMismatch => "vault root does not match confirmation"
  | invalidRecoveryPayload => "invalid deposit recovery payload"
  | invalidDepositRecord => "QuietVault returned invalid deposit record values"
  | depositMismatch => "deposit recovery payload does not match QuietVault"
  | ledger cause => cause.message
  | _ => none

/-! ### What the extension takes from libraries and from the TEE -/

structure Platform where
  keccak256 : Keccak
  /-- `crypto.SigToPub` and `crypto.PubkeyToAddress`. -/
  recover : Hash → List UInt8 → Option Address
  /-- The decryption service of the TEE. -/
  decrypt : List UInt8 → Option (List UInt8)
  /-- Encryption to a response key; the key may be no curve point. -/
  encrypt : List UInt8 → List UInt8 → Option (List UInt8)
  /-- `json.Marshal` of an answer. -/
  marshalView : PrivateView → List UInt8
  /-- `processorutils.Parse` and `json.Unmarshal`, at each of the types they are used at. -/
  dataFixed : List UInt8 → Option DataFixed
  directInstruction : List UInt8 → Option DirectInstruction
  signedAction : List UInt8 → Option SignedAction
  openAccountPayload : List UInt8 → Option OpenAccountPayload
  setMandatePayload : List UInt8 → Option SetMandatePayload
  cancelMandatePayload : List UInt8 → Option CancelMandatePayload
  withdrawFromMandatePayload : List UInt8 → Option WithdrawFromMandatePayload
  quotePayload : List UInt8 → Option QuoteRequest
  borrowAcceptPayload : List UInt8 → Option BorrowAcceptPayload
  repaymentPayload : List UInt8 → Option RepaymentPayload
  stressQueryPayload : List UInt8 → Option StressQueryPayload
  anchorConfirmedPayload : List UInt8 → Option AnchorConfirmedPayload
  recoverDepositPayload : List UInt8 → Option RecoverDepositPayload

/-! ### Requests -/

/-- The places of the code that call `State()`. -/
inductive ReadSite where
  | verification
  | withdrawal
  | view
  | recovery
  | settlement
  deriving DecidableEq, Repr

/-- The views of the vault that the handlers call. -/
inductive VaultRead where
  | stateSequence
  | stateRoot
  | depositById (depositID : Hash)
  deriving DecidableEq

inductive Request where
  | state (site : ReadSite)
  | mutate (op : Operation)
  | confirmAnchor (sequence : Nat) (root : String)
  | quoteAtPrice (req : QuoteRequest) (price : Price)
  | clock
  | vaultLiquidity (token : Address)
  | currentXrpUsdPrice
  /-- Which of two concurrent chain reads is served first. -/
  | sequenceFirst
  | callVault (read : VaultRead)
  /-- The order of one `range` over a map of the state that was read. -/
  | rangeOrder
  | sign (settlement : Settlement)

abbrev Response : Request → Type
  | .state _ => State
  | .mutate _ => Except LedgerError Unit
  | .confirmAnchor .. => Except LedgerError Unit
  | .quoteAtPrice .. => Except LedgerError Quote
  | .clock => Int
  | .vaultLiquidity _ => Option UInt64
  | .currentXrpUsdPrice => Option Price
  | .sequenceFirst => Bool
  | .callVault _ => Option (List UInt8)
  | .rangeOrder => RangeOrder
  | .sign _ => Bool

abbrev Exchange := Process.Exchange Request Response
abbrev Trace := Process.Trace Request Response

/-- A program of the extension. -/
abbrev Handler := Process.Fallible HandlerError Request Response

/-- A handler that has been started. -/
abbrev Running := Process Request Response (Except HandlerError Reply)

namespace Handler

abbrev perform (r : Request) : Handler (Response r) := Process.Fallible.perform r

/-- Go on with an outcome. -/
abbrev attempt {α : Type} (x : Except HandlerError α) : Handler α := Process.Fallible.ofExcept x

/-- The value, or `err` when there is none. -/
abbrev orElse {α : Type} (err : HandlerError) (o : Option α) : Handler α :=
  attempt (Outcome.orElse err o)

/-- Leave with `err` when `bad` holds. -/
abbrev rejectIf (bad : Prop) [Decidable bad] (err : HandlerError) : Handler Unit :=
  attempt (Outcome.rejectIf bad err)

/-- An error of the engine is an error of the handler. -/
def ofLedger {α : Type} : Except LedgerError α → Except HandlerError α
  | .ok a => .ok a
  | .error cause => .error (.ledger cause)

/-- A call of a mutating method of the engine. -/
def operate (op : Operation) : Handler Unit := do
  let answer ← perform (.mutate op)
  attempt (ofLedger answer)

end Handler

end QuietLine
