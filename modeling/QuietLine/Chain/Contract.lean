/-
The vault contract on its chain.

`Chain.Vault` has the functions that move the vault's own state, each applied to what
its transaction finds (`Tx`).  Here is where a transaction finds it: the roles, the
pause and the extension's id are the contract's, the price is worked out from the feed,
the signers are looked up in the registry of machines, and what a deposit brought is
the difference of two balances.  The other contracts answer what they like, anew in
each transaction (`Surroundings`); one that reverts where the vault does not catch it
makes the transaction revert, which changes nothing.
-/
import QuietLine.Chain.Vault
import QuietLine.Library.Machine

namespace QuietLine

open Outcome

/-! ### What a transaction meets -/

/-- The block and the answers of the other contracts in one transaction. -/
structure Surroundings where
  timestamp : Nat
  /-- `getTeeExtensionInstructionsSender`. -/
  instructionsSender : Nat → Address
  /-- `getExtensionId`, if it does not revert. -/
  signerExtensionID : Address → Option Nat
  /-- `getTeeMachineStatus`, if it does not revert. -/
  machineStatus : Address → Option UInt8
  /-- `getFeedByIdInWei`. -/
  feed : Nat × UInt64
  /-- `getRandomTeeIds` and `sendInstructions` take the instruction. -/
  takesInstruction : Bool
  /-- What the vault has of the token after the token's transfer, if it does not revert. -/
  transferred : Option Nat

/-- `MAX_ORACLE_AGE`, five minutes. -/
def maxOracleAge : Nat := 300

/-- `FIRST_PUBLIC_EXTENSION_ID`. -/
def firstPublicExtensionID : Nat := 0x10000

/-- `TEE_STATUS_PRODUCTION`. -/
def teeStatusProduction : UInt8 := 2

/-- `currentXrpUsdPrice`. -/
def Surroundings.currentXrpUsdPrice (env : Surroundings) : Except VaultError (UInt64 × UInt64) := do
  rejectIf (env.feed.1 = 0 ∨ env.feed.1 / 10 ^ 12 > 2 ^ 64 - 1) .invalidOraclePrice
  rejectIf (env.feed.2.toNat > env.timestamp ∨ env.timestamp - env.feed.2.toNat > maxOracleAge)
    .staleOraclePrice
  return (UInt64.ofNat (env.feed.1 / 10 ^ 12), env.feed.2)

/-! ### The contract's own state -/

/-- `DEFAULT_ADMIN_ROLE` and `OPERATOR_ROLE`. -/
inductive Role where
  | admin
  | operator
  deriving DecidableEq, Repr

structure Contract where
  vault : Vault := {}
  extensionID : Nat := 0
  activeTeeSigner : Address := Address.zero
  paused : Bool := false
  /-- The accounts that have a role, each with it. -/
  roles : List (Role × Address)

inductive ContractError where
  | vault (cause : VaultError)
  /-- `whenPaused`. -/
  | expectedPause
  | accessControlBadConfirmation
  deriving DecidableEq, Repr

/-- The state the constructor leaves. -/
def Contract.deployed (admin operator : Address) : Contract where
  roles := [(.operator, if operator = Address.zero then admin else operator), (.admin, admin)]

/-- `constructor`; the chain tells how long the code at an address is. -/
def Contract.create (codeLength : Address → Nat) (extensionRegistry machineRegistry ftsoV2 : Address)
    (xrpUsdFeedID : Bytes.Fixed 21) (fxrp usdt0 admin operator : Address) :
    Except ContractError Contract := do
  rejectIf (extensionRegistry = Address.zero ∨ machineRegistry = Address.zero ∨
    ftsoV2 = Address.zero ∨ xrpUsdFeedID = Bytes.Fixed.zero 21 ∨ fxrp = Address.zero ∨
    usdt0 = Address.zero ∨ admin = Address.zero) (.vault .invalidDestination)
  rejectIf (codeLength extensionRegistry = 0 ∨ codeLength machineRegistry = 0 ∨
    codeLength ftsoV2 = 0) (.vault .invalidDestination)
  return Contract.deployed admin operator

def Contract.hasRole (c : Contract) (role : Role) (account : Address) : Bool :=
  c.roles.contains (role, account)

/-- `onlyRole`. -/
def Contract.onlyRole (c : Contract) (role : Role) (sender : Address) :
    Except ContractError Unit :=
  rejectIf (c.hasRole role sender = false) (.vault .accessControlUnauthorizedAccount)

/-- `isAuthorizedTeeSigner`. -/
def Contract.isAuthorizedTeeSigner (env : Surroundings) (c : Contract) (signer : Address) : Bool :=
  if signer = Address.zero ∨ c.extensionID = 0 then
    false
  else
    match env.signerExtensionID signer with
    | none => false
    | some signerExtensionID =>
        if signerExtensionID ≠ c.extensionID then
          false
        else
          match env.machineStatus signer with
          | none => false
          | some status => status = teeStatusProduction

def Contract.setExtensionID (cfg : Config) (env : Surroundings) (sender : Address) (id : Nat)
    (c : Contract) : Except ContractError Contract := do
  c.onlyRole .admin sender
  rejectIf (c.extensionID ≠ 0 ∨ id < firstPublicExtensionID ∨
    env.instructionsSender id ≠ cfg.vault) (.vault .invalidSettlement)
  return { c with extensionID := id }

def Contract.setTeeSigner (env : Surroundings) (sender signer : Address) (c : Contract) :
    Except ContractError Contract := do
  c.onlyRole .admin sender
  rejectIf (signer = Address.zero) (.vault .invalidDestination)
  rejectIf (c.isAuthorizedTeeSigner env signer = false) (.vault .invalidTeeSignature)
  return { c with activeTeeSigner := signer }

/-- `pause`, which is `_pause` behind its role: only what is not paused. -/
def Contract.pause (sender : Address) (c : Contract) : Except ContractError Contract := do
  c.onlyRole .operator sender
  rejectIf (c.paused = true) (.vault .enforcedPause)
  return { c with paused := true }

def Contract.unpause (sender : Address) (c : Contract) : Except ContractError Contract := do
  c.onlyRole .operator sender
  rejectIf (c.paused = false) .expectedPause
  return { c with paused := false }

/-- `grantRole`; the admin role is the admin of both. -/
def Contract.grantRole (sender : Address) (role : Role) (account : Address) (c : Contract) :
    Except ContractError Contract := do
  c.onlyRole .admin sender
  return { c with roles := (role, account) :: c.roles }

def Contract.revokeRole (sender : Address) (role : Role) (account : Address) (c : Contract) :
    Except ContractError Contract := do
  c.onlyRole .admin sender
  return { c with roles := c.roles.filter fun entry => entry ≠ (role, account) }

/-- `renounceRole`, which wants the caller to name itself. -/
def Contract.renounceRole (sender : Address) (role : Role) (account : Address) (c : Contract) :
    Except ContractError Contract := do
  rejectIf (account ≠ sender) .accessControlBadConfirmation
  return { c with roles := c.roles.filter fun entry => entry ≠ (role, account) }

/-- The calls that govern the contract. -/
inductive Governing where
  | setExtensionID (id : Nat)
  | setTeeSigner (signer : Address)
  | pause
  | unpause
  | grantRole (role : Role) (account : Address)
  | revokeRole (role : Role) (account : Address)
  | renounceRole (role : Role) (account : Address)
  deriving DecidableEq

def Governing.apply (cfg : Config) (env : Surroundings) (sender : Address) (c : Contract) :
    Governing → Except ContractError Contract
  | setExtensionID id => c.setExtensionID cfg env sender id
  | setTeeSigner signer => c.setTeeSigner env sender signer
  | pause => c.pause sender
  | unpause => c.unpause sender
  | grantRole role account => c.grantRole sender role account
  | revokeRole role account => c.revokeRole sender role account
  | renounceRole role account => c.renounceRole sender role account

/-! ### The chain -/

/-- The contract and what `balanceOf` says it has of each token. -/
structure Chain where
  contract : Contract
  balance : Address → Nat := fun _ => 0

/-- The token that a call brings in. -/
def VaultCall.brings (cfg : Config) : VaultCall → Option Address
  | deposit token _ => some token
  | fundBackstop _ => some cfg.usdt0
  | _ => none

/-- The transaction of a call that brings in `token`, if any; the subtraction of the two balances
is checked. -/
def Chain.incoming (cfg : Config) (env : Surroundings) (sender : Address) (token : Option Address)
    (ch : Chain) : Tx where
  sender
  timestamp := env.timestamp
  isOperator := ch.contract.hasRole .operator sender
  paused := ch.contract.paused
  transfers := env.transferred.any fun after => (token.map ch.balance).getD 0 ≤ after
  received := env.transferred.getD 0 - (token.map ch.balance).getD 0
  liquidity := ch.balance cfg.usdt0
  configured := ch.contract.extensionID ≠ 0 && env.takesInstruction
  price := env.currentXrpUsdPrice

/-- The transaction that submits a settlement, under a signature that recovers to `signer`. -/
def Chain.outgoing (cfg : Config) (env : Surroundings) (sender signer : Address)
    (ch : Chain) : Tx where
  sender
  timestamp := env.timestamp
  isOperator := ch.contract.hasRole .operator sender
  paused := ch.contract.paused
  transfers := env.transferred.isSome
  liquidity := ch.balance cfg.usdt0
  signerActive := ch.contract.isAuthorizedTeeSigner env signer
  configured := ch.contract.extensionID ≠ 0 && env.takesInstruction
  price := env.currentXrpUsdPrice

/-- The token a settlement pays out in. -/
def Settlement.spends (settlement : Settlement) : Option Address :=
  if settlement.settlementType = .checkpoint then none else some settlement.token

/-- The balances after a transfer of the token, if there was one. -/
def Chain.settled (env : Surroundings) (token : Option Address) (ch : Chain) : Address → Nat :=
  fun t => if token = some t then env.transferred.getD 0 else ch.balance t

inductive ChainMove where
  | govern (env : Surroundings) (sender : Address) (call : Governing)
  | transact (env : Surroundings) (sender : Address) (call : VaultCall)
  /-- A settlement is submitted; `ECDSA.recover` answers `signer`. -/
  | execute (env : Surroundings) (sender signer : Address) (settlement : Settlement)
  /-- Somebody sends the vault tokens. -/
  | receive (token : Address) (amount : Nat)

def ofContract {α : Type} : Except VaultError α → Except ContractError α
  | .ok a => .ok a
  | .error cause => .error (.vault cause)

def Chain.step (keccak : Keccak) (cfg : Config) (ch : Chain) :
    ChainMove → Except ContractError Chain
  | .govern env sender call => do
      let contract ← call.apply cfg env sender ch.contract
      return { ch with contract }
  | .transact env sender call => do
      let tx := ch.incoming cfg env sender (call.brings cfg)
      let vault ← ofContract (call.apply keccak cfg tx ch.contract.vault)
      return { contract := { ch.contract with vault }
               balance := ch.settled env (call.brings cfg) }
  | .execute env sender signer settlement => do
      let tx := ch.outgoing cfg env sender signer
      let vault ← ofContract (ch.contract.vault.executeSettlement cfg tx tx.signerActive settlement)
      return { contract := { ch.contract with vault }
               balance := ch.settled env settlement.spends }
  | .receive token amount =>
      .ok { ch with balance := fun t => if t = token then ch.balance t + amount else ch.balance t }

/-- The chain after a list of moves, from the deployment of the contract on. -/
def chainAfter (keccak : Keccak) (cfg : Config) (admin operator : Address)
    (moves : List ChainMove) : Chain :=
  Machine.run (Chain.step keccak cfg) { contract := Contract.deployed admin operator } moves

end QuietLine
