/-
Signed actions (`extension/crypto.go`).

The digest is the EIP-712 digest of the action under the vault's domain: two
levels of packed words below one `keccak256`, with the texts and byte strings of
the action hashed to words of their own.
-/
import QuietLine.Extension.Protocol

namespace QuietLine

open Abi

section Digest

variable (keccak : Keccak)

def domainTypeHash : Hash :=
  keccak (Bytes.utf8
    "EIP712Domain(string name,string version,uint256 chainId,address verifyingContract)")

def actionTypeHash : Hash :=
  keccak (Bytes.utf8 ("QuietlineAction(address sender,uint64 nonce,uint64 deadline," ++
    "bytes32 actionHash,bytes32 payloadHash,bytes32 responseKeyHash)"))

def nameHash : Hash := keccak (Bytes.utf8 "Quietline")

def versionHash : Hash := keccak (Bytes.utf8 "1")

/-- `domainArgs.Pack`. -/
def packDomain (chainID : UInt64) (vault : Address) : List UInt8 :=
  Bytes.pack [domainTypeHash keccak, nameHash keccak, versionHash keccak,
    uintWord chainID.toNat, addressWord vault]

/-- `actionArgs.Pack`. -/
def packAction (req : SignedAction) : List UInt8 :=
  Bytes.pack [actionTypeHash keccak, addressWord req.sender, uintWord req.nonce.toNat,
    uintWord req.deadline.toNat, keccak (Bytes.utf8 req.action), keccak req.payload,
    keccak req.responsePublicKey]

/-- What `signedActionDigest` hashes last. -/
def packDigest (req : SignedAction) (chainID : UInt64) (vault : Address) : List UInt8 :=
  [0x19, 0x01] ++ Bytes.pack [keccak (packDomain keccak chainID vault),
    keccak (packAction keccak req)]

def signedActionDigest (req : SignedAction) (chainID : UInt64) (vault : Address) : Hash :=
  keccak (packDigest keccak req chainID vault)

end Digest

/-! ### Verification -/

/-- The actions whose nonce `verifySignedAction` does not check. -/
def requiresCurrentNonce (action : List UInt8) : Bool :=
  !(action = Bytes.utf8 "OPEN_ACCOUNT" || action = Bytes.utf8 "ACCOUNT_QUERY" ||
    action = Bytes.utf8 "STRESS_QUERY" || action = Bytes.utf8 "QUOTE_REQUEST")

/-- A recovery id of 27 or 28 is lowered to 0 or 1. -/
def normalizeRecoveryID (signature : List UInt8) : List UInt8 :=
  signature.take 64 ++ (signature.drop 64).map fun v => if v ≥ 27 then v - 27 else v

/-- The address whose key made the signature of the action. -/
def signer (P : Platform) (cfg : Config) (req : SignedAction) : Option Address :=
  P.recover (signedActionDigest P.keccak256 req cfg.chainID cfg.vault)
    (normalizeRecoveryID req.signature)

/-- `uint64(t.Unix())`. -/
def unixUint64 (now : Int) : UInt64 := UInt64.ofNat (now % 2 ^ 64).toNat

/-- `verifySignedAction`; the action it expects is a text in bytes, because a command may be any
`bytes32`. -/
def verifySignedAction (P : Platform) (cfg : Config) (req : SignedAction)
    (expectedAction : List UInt8) : Handler Unit := do
  Handler.rejectIf (Bytes.utf8 req.action ≠ expectedAction) (.actionMismatch expectedAction)
  let now ← Handler.perform .clock
  Handler.rejectIf (req.deadline < unixUint64 now) .actionExpired
  Handler.rejectIf (req.responsePublicKey.length ≠ 65 ∨ req.responsePublicKey.head? ≠ some 4)
    .invalidResponseKey
  Handler.rejectIf (req.signature.length ≠ 65) .signatureLength
  let recovered ← Handler.orElse .signerRecovery (signer P cfg req)
  Handler.rejectIf (recovered ≠ req.sender) .signatureMismatch
  let state ← Handler.perform (.state .verification)
  let account := state.accounts[lower P.keccak256 req.sender]?
  Handler.rejectIf (expectedAction ≠ Bytes.utf8 "OPEN_ACCOUNT" ∧ account.isNone) .noAccount
  match account with
  | some a =>
      Handler.rejectIf (requiresCurrentNonce expectedAction ∧ a.nonce ≠ req.nonce.toNat)
        (.nonceMismatch a.nonce)
  | none => return ()

end QuietLine
