/-
The vault contract (`QuietVault.sol`).

The functions below are the contract's, each applied to what its transaction finds
on the chain (`Tx`): the sender, the block time, the role and pause checks, and how
the token calls turn out.  A call that reverts answers an error and changes
nothing.  The events `DepositSubmitted` and `BackstopFunded`, `SettlementExecuted`,
and the instructions handed to the registry are kept in order, so that a run can be
read back from the state it ends in.
-/
import QuietLine.Chain.Types
import QuietLine.Library.Outcome

namespace QuietLine

open Outcome Abi

/-! ### Settlements -/

/-- `SettlementType`; the extension writes it as 0, 1 or 2. -/
inductive SettlementType where
  | borrowPayout
  | userWithdrawal
  | checkpoint
  deriving DecidableEq, Repr

structure Settlement where
  protocolVersion : UInt8 := 2
  settlementType : SettlementType
  account : Address
  token : Address
  amount : Nat
  destination : Address
  requestID : Hash
  settlementID : Hash
  previousSequence : Nat
  nextSequence : Nat
  previousRoot : Hash
  nextRoot : Hash
  deadline : Nat
  deriving DecidableEq

/-- The index of a member, as the ABI writes an enumeration. -/
def SettlementType.toNat : SettlementType → Nat
  | borrowPayout => 0
  | userWithdrawal => 1
  | checkpoint => 2

/-- `SETTLEMENT_DOMAIN`. -/
def settlementDomain (keccak : Keccak) : Hash := keccak (Bytes.utf8 "QUIETLINE_SETTLEMENT_V2")

/-- The arguments `settlementHash` encodes, at the types the contract declares. -/
def Settlement.arguments (keccak : Keccak) (chainID : Nat) (vault : Address) (extensionID : Nat)
    (settlement : Settlement) : List Arg := [
  .bytes32 (settlementDomain keccak),
  .uint 256 chainID,
  .address vault,
  .uint 256 extensionID,
  .uint 8 settlement.protocolVersion.toNat,
  .uint 8 settlement.settlementType.toNat,
  .address settlement.account,
  .address settlement.token,
  .uint 256 settlement.amount,
  .address settlement.destination,
  .bytes32 settlement.requestID,
  .bytes32 settlement.settlementID,
  .uint 64 settlement.previousSequence,
  .uint 64 settlement.nextSequence,
  .bytes32 settlement.previousRoot,
  .bytes32 settlement.nextRoot,
  .uint 64 settlement.deadline]

/-- What it hashes. -/
def Settlement.preimage (keccak : Keccak) (chainID : Nat) (vault : Address) (extensionID : Nat)
    (settlement : Settlement) : List UInt8 :=
  Abi.encode (settlement.arguments keccak chainID vault extensionID)

def settlementHash (keccak : Keccak) (chainID : Nat) (vault : Address) (extensionID : Nat)
    (settlement : Settlement) : Hash :=
  keccak (settlement.preimage keccak chainID vault extensionID)

/-- `toEthSignedMessageHash`: what the signature is recovered over. -/
def toEthSignedMessageHash (keccak : Keccak) (hash : Hash) : Hash :=
  keccak (Bytes.utf8 "\x19Ethereum Signed Message:\n32" ++ hash.toList)

/-! ### The contract -/

inductive VaultError where
  | unsupportedAsset
  | invalidAmount
  | invalidDestination
  | feeOnTransferUnsupported
  | invalidSettlement
  | settlementAlreadyUsed
  | settlementExpired
  | invalidStateTransition
  | invalidTeeSignature
  | insufficientVaultLiquidity
  | invalidOraclePrice
  | staleOraclePrice
  /-- Reverts that are not the contract's own errors: roles, pausing, tokens, overflow. -/
  | accessControlUnauthorizedAccount
  | enforcedPause
  | transferFailed
  | overflow
  deriving DecidableEq, Repr

/-- What a transaction finds on the chain. -/
structure Tx where
  sender : Address
  timestamp : Nat
  /-- The sender has `OPERATOR_ROLE`. -/
  isOperator : Bool := true
  paused : Bool := false
  /-- The token's transfer does not revert. -/
  transfers : Bool := true
  /-- What `balanceOf` grew by over `safeTransferFrom`. -/
  received : Nat := 0
  /-- `balanceOf` of the vault in USDT0. -/
  liquidity : Nat := 0
  /-- The TEE's key is an authorised signer. -/
  signerActive : Bool := true
  /-- `extensionId` is set and the registry takes the instruction. -/
  configured : Bool := true
  /-- `currentXrpUsdPrice`. -/
  price : Except VaultError (UInt64 × UInt64) := .error .invalidOraclePrice

structure DepositRecord where
  account : Address := Address.zero
  token : Address := Address.zero
  amount : Nat := 0
  submittedAt : UInt64 := 0
  deriving DecidableEq

/-- An instruction for the extension. -/
structure Instruction where
  opCommand : Hash
  message : List UInt8
  deriving DecidableEq

/-- `DepositSubmitted` or `BackstopFunded`: what the vault has received. -/
structure Funding where
  isBackstop : Bool
  account : Address
  token : Address
  amount : Nat
  nonce : Nat
  deriving DecidableEq

structure Vault where
  stateSequence : Nat := 0
  stateRoot : Hash := Hash.zero
  depositNonce : Nat := 0
  usedSettlementId : List Hash := []
  depositById : Hash → DepositRecord := fun _ => {}
  fundings : List Funding := []
  executed : List Settlement := []
  sent : List Instruction := []

/-- `_send`. -/
def Vault.send (tx : Tx) (command : String) (message : List UInt8) (v : Vault) :
    Except VaultError Vault := do
  rejectIf (tx.configured = false) .invalidSettlement
  return { v with sent := v.sent ++ [{ opCommand := toHash command, message }] }

/-- What `deposit` and `fundBackstop` hash to a deposit id. -/
def Funding.preimage (cfg : Config) (f : Funding) : List UInt8 :=
  Bytes.pack ([uintWord cfg.chainID.toNat, addressWord cfg.vault, addressWord f.account,
    addressWord f.token, uintWord f.amount, uintWord f.nonce] ++
      if f.isBackstop then [toHash "BACKSTOP_DEPOSIT"] else [])

def Funding.depositID (keccak : Keccak) (cfg : Config) (f : Funding) : Hash :=
  keccak (f.preimage cfg)

/-- What they have in common: the tokens arrive, and the deposit takes the next nonce. -/
def Vault.receiveTokens (tx : Tx) (isBackstop : Bool) (token : Address) (amount : Nat)
    (v : Vault) : Except VaultError (Funding × Vault) := do
  rejectIf (tx.transfers = false) .transferFailed
  rejectIf (tx.received ≠ amount) .feeOnTransferUnsupported
  rejectIf (v.depositNonce + 1 ≥ 2 ^ 64) .overflow
  let funding : Funding :=
    { isBackstop, account := tx.sender, token, amount, nonce := v.depositNonce + 1 }
  return (funding,
    { v with depositNonce := v.depositNonce + 1, fundings := v.fundings ++ [funding] })

/-- `abi.encode(msg.sender, token, amount, depositId)`. -/
def depositMessage (keccak : Keccak) (cfg : Config) (f : Funding) : List UInt8 :=
  Bytes.pack [addressWord f.account, addressWord f.token, uintWord f.amount,
    f.depositID keccak cfg]

def Vault.deposit (keccak : Keccak) (cfg : Config) (tx : Tx) (token : Address)
    (amount : Nat) (v : Vault) : Except VaultError Vault := do
  rejectIf (cfg.supportedAsset token = false) .unsupportedAsset
  rejectIf (amount = 0 ∨ amount ≥ 2 ^ 64) .invalidAmount
  let (funding, v) ← v.receiveTokens tx false token amount
  let record : DepositRecord :=
    { account := tx.sender, token, amount, submittedAt := UInt64.ofNat tx.timestamp }
  let depositID := funding.depositID keccak cfg
  let v := { v with depositById := fun id => if id = depositID then record else v.depositById id }
  v.send tx "DEPOSIT" (depositMessage keccak cfg funding)

/-- `abi.encode(msg.sender, amount, depositId)`. -/
def backstopMessage (keccak : Keccak) (cfg : Config) (f : Funding) : List UInt8 :=
  Bytes.pack [addressWord f.account, uintWord f.amount, f.depositID keccak cfg]

def Vault.fundBackstop (keccak : Keccak) (cfg : Config) (tx : Tx) (amount : Nat)
    (v : Vault) : Except VaultError Vault := do
  rejectIf (tx.isOperator = false) .accessControlUnauthorizedAccount
  rejectIf (amount = 0 ∨ amount ≥ 2 ^ 64) .invalidAmount
  let (funding, v) ← v.receiveTokens tx true cfg.usdt0 amount
  v.send tx "BACKSTOP_DEPOSIT" (backstopMessage keccak cfg funding)

/-- `abi.encode(msg.sender, encryptedAcceptance, priceE6, priceTimestamp)`. -/
def borrowMessage (sender : Address) (encryptedAcceptance : List UInt8)
    (price : UInt64 × UInt64) : List UInt8 :=
  let padding := List.replicate ((32 - encryptedAcceptance.length % 32) % 32) 0
  Bytes.pack [addressWord sender, uintWord 128, uintWord price.1.toNat, uintWord price.2.toNat] ++
    (Bytes.pack [uintWord encryptedAcceptance.length] ++ encryptedAcceptance ++ padding)

def Vault.requestBorrow (tx : Tx) (encryptedAcceptance : List UInt8) (v : Vault) :
    Except VaultError Vault := do
  rejectIf (tx.paused = true) .enforcedPause
  rejectIf (encryptedAcceptance.length = 0) .invalidAmount
  let price ← tx.price
  v.send tx "BORROW_ACCEPT" (borrowMessage tx.sender encryptedAcceptance price)

/-- `abi.encode(msg.sender, token, amount, destination)`. -/
def withdrawalMessage (sender token : Address) (amount : Nat) (destination : Address) :
    List UInt8 :=
  Bytes.pack [addressWord sender, addressWord token, uintWord amount, addressWord destination]

def Vault.requestWithdrawal (cfg : Config) (tx : Tx) (token : Address) (amount : Nat)
    (destination : Address) (v : Vault) : Except VaultError Vault := do
  rejectIf (cfg.supportedAsset token = false) .unsupportedAsset
  rejectIf (amount = 0 ∨ amount ≥ 2 ^ 64) .invalidAmount
  rejectIf (destination = Address.zero) .invalidDestination
  v.send tx "WITHDRAW_REQUEST" (withdrawalMessage tx.sender token amount destination)

def Vault.requestRiskTick (tx : Tx) (v : Vault) : Except VaultError Vault := do
  let price ← tx.price
  v.send tx "RISK_TICK" (Bytes.pack [uintWord price.1.toNat, uintWord price.2.toNat])

/-! ### Executing a settlement -/

/-- What `executeSettlement` asks of the fields that say what is paid. -/
def Settlement.checkPayment (cfg : Config) (settlement : Settlement) :
    Except VaultError Unit := do
  if settlement.settlementType = .checkpoint then
    rejectIf (settlement.token ≠ Address.zero ∨ settlement.amount ≠ 0 ∨
      settlement.destination ≠ Address.zero) .invalidSettlement
  else
    rejectIf (cfg.supportedAsset settlement.token = false) .unsupportedAsset
    rejectIf (settlement.amount = 0 ∨ settlement.amount ≥ 2 ^ 64) .invalidAmount
    rejectIf (settlement.destination = Address.zero) .invalidDestination

/-- What it asks besides of a borrow payout. -/
def Settlement.checkBorrow (cfg : Config) (tx : Tx) (settlement : Settlement) :
    Except VaultError Unit := do
  if settlement.settlementType = .borrowPayout then
    rejectIf (tx.paused = true) .enforcedPause
    rejectIf (settlement.token ≠ cfg.usdt0) .invalidSettlement
    rejectIf (tx.liquidity < settlement.amount) .insufficientVaultLiquidity

/-- `executeSettlement`; `authorized` says that the signature is one of an authorised signer. -/
def Vault.executeSettlement (cfg : Config) (tx : Tx) (authorized : Bool)
    (settlement : Settlement) (v : Vault) : Except VaultError Vault := do
  rejectIf (settlement.protocolVersion ≠ 2) .invalidSettlement
  rejectIf (settlement.settlementID ∈ v.usedSettlementId) .settlementAlreadyUsed
  rejectIf (settlement.deadline < tx.timestamp) .settlementExpired
  rejectIf (settlement.previousSequence ≠ v.stateSequence ∨
    settlement.nextSequence ≠ v.stateSequence + 1 ∨ settlement.previousRoot ≠ v.stateRoot ∨
    settlement.nextRoot = Hash.zero) .invalidStateTransition
  settlement.checkPayment cfg
  settlement.checkBorrow cfg tx
  rejectIf (authorized = false) .invalidTeeSignature
  rejectIf (settlement.settlementType ≠ .checkpoint ∧ tx.transfers = false) .transferFailed
  return { v with
    usedSettlementId := settlement.settlementID :: v.usedSettlementId
    stateSequence := settlement.nextSequence
    stateRoot := settlement.nextRoot
    executed := v.executed ++ [settlement] }

/-! ### The contract as a machine -/

/-- A transaction to one of the functions that do not execute a settlement. -/
inductive VaultCall where
  | deposit (token : Address) (amount : Nat)
  | fundBackstop (amount : Nat)
  | requestBorrow (encryptedAcceptance : List UInt8)
  | requestWithdrawal (token : Address) (amount : Nat) (destination : Address)
  | requestRiskTick

def VaultCall.apply (keccak : Keccak) (cfg : Config) (tx : Tx) :
    VaultCall → Vault → Except VaultError Vault
  | deposit token amount, v => v.deposit keccak cfg tx token amount
  | fundBackstop amount, v => v.fundBackstop keccak cfg tx amount
  | requestBorrow encryptedAcceptance, v => v.requestBorrow tx encryptedAcceptance
  | requestWithdrawal token amount destination, v =>
      v.requestWithdrawal cfg tx token amount destination
  | requestRiskTick, v => v.requestRiskTick tx

/-! ### Inversion -/

section Inversion

variable {keccak : Keccak} {cfg : Config} {tx : Tx} {v v' : Vault}

theorem send_ok {command : String} {message : List UInt8} (h : v.send tx command message = .ok v') :
    v' = { v with sent := v.sent ++ [{ opCommand := toHash command, message }] } := by
  unfold Vault.send at h
  obtain ⟨_, _, hv⟩ := bind_eq_ok.mp h
  cases hv
  rfl

theorem receiveTokens_ok {isBackstop : Bool} {token : Address} {amount : Nat} {f : Funding}
    (h : v.receiveTokens tx isBackstop token amount = .ok (f, v')) :
    tx.received = amount ∧ v.depositNonce + 1 < 2 ^ 64 ∧
      f = { isBackstop, account := tx.sender, token, amount, nonce := v.depositNonce + 1 } ∧
      v' = { v with depositNonce := v.depositNonce + 1, fundings := v.fundings ++ [f] } := by
  unfold Vault.receiveTokens at h
  simp only [bind_eq_ok, rejectIf_eq_ok] at h
  obtain ⟨_, _, _, hreceived, _, hnonce, hv⟩ := h
  cases hv
  exact ⟨not_not.mp hreceived, Nat.lt_of_not_ge hnonce, rfl, rfl⟩

/-- An executed settlement: every check passed, and the vault has moved to its next anchor. -/
theorem executeSettlement_ok {authorized : Bool} {settlement : Settlement}
    (h : v.executeSettlement cfg tx authorized settlement = .ok v') :
    authorized = true ∧ settlement.previousSequence = v.stateSequence ∧
      settlement.nextSequence = v.stateSequence + 1 ∧ settlement.previousRoot = v.stateRoot ∧
      settlement.checkPayment cfg = .ok () ∧
      v' = { v with
        usedSettlementId := settlement.settlementID :: v.usedSettlementId
        stateSequence := settlement.nextSequence
        stateRoot := settlement.nextRoot
        executed := v.executed ++ [settlement] } := by
  unfold Vault.executeSettlement at h
  simp only [bind_eq_ok, rejectIf_eq_ok] at h
  obtain ⟨_, _, _, _, _, _, _, hanchor, _, hpayment, _, _, _, hauth, _, _, hv⟩ := h
  cases hv
  obtain ⟨hprev, hanchor⟩ := not_or.mp hanchor
  obtain ⟨hnext, hanchor⟩ := not_or.mp hanchor
  obtain ⟨hroot, _⟩ := not_or.mp hanchor
  exact ⟨by simpa using hauth, not_not.mp hprev, not_not.mp hnext, not_not.mp hroot, hpayment, rfl⟩

end Inversion

end QuietLine
