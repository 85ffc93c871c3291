/-
The settlement as the extension signs it (`quiettypes.Settlement`, `packSettlement`).

On this side every field has the width Go gives it, and the type of a settlement is a
number.  `args.Pack` compares the Go type of each value with the type its position declares,
so a packing exists only where the two lists agree.
-/
import QuietLine.Chain.Vault

namespace QuietLine

open Abi

/-- `quiettypes.Settlement`. -/
structure WireSettlement where
  protocolVersion : UInt8
  settlementType : UInt8
  account : Address
  token : Address
  amount : UInt64
  destination : Address
  requestID : Hash
  settlementID : Hash
  previousSequence : UInt64
  nextSequence : UInt64
  previousRoot : Hash
  nextRoot : Hash
  deadline : UInt64
  deriving DecidableEq

/-- `args` of `packSettlement`. -/
def settlementTypes : List Ty := [
  .bytes32, .uint 256, .address, .uint 256,
  .uint 8, .uint 8, .address, .address, .uint 256, .address,
  .bytes32, .bytes32, .uint 64, .uint 64, .bytes32, .bytes32, .uint 64]

/-- The values it packs, each at its Go type: a `*big.Int` is a `uint256`. -/
def WireSettlement.values (keccak : Keccak) (cfg : Config) (extensionID : UInt64)
    (s : WireSettlement) : List Arg := [
  .bytes32 (keccak (Bytes.utf8 "QUIETLINE_SETTLEMENT_V2")),
  .uint 256 cfg.chainID.toNat, .address cfg.vault, .uint 256 extensionID.toNat,
  .uint 8 s.protocolVersion.toNat, .uint 8 s.settlementType.toNat, .address s.account,
  .address s.token, .uint 256 s.amount.toNat, .address s.destination,
  .bytes32 s.requestID, .bytes32 s.settlementID, .uint 64 s.previousSequence.toNat,
  .uint 64 s.nextSequence.toNat, .bytes32 s.previousRoot, .bytes32 s.nextRoot,
  .uint 64 s.deadline.toNat]

/-- `packSettlement`. -/
def packSettlement (keccak : Keccak) (cfg : Config) (extensionID : UInt64) (s : WireSettlement) :
    Option (List UInt8) :=
  encodeAs settlementTypes (s.values keccak cfg extensionID)

/-- The member an ABI number stands for. -/
def SettlementType.ofUInt8 (n : UInt8) : Option SettlementType :=
  if n = 0 then some .borrowPayout
  else if n = 1 then some .userWithdrawal
  else if n = 2 then some .checkpoint
  else none

/-- The settlement the contract is called with; it reverts on a number that is no member. -/
def WireSettlement.onChain (s : WireSettlement) : Option Settlement :=
  (SettlementType.ofUInt8 s.settlementType).map fun settlementType =>
    { protocolVersion := s.protocolVersion
      settlementType
      account := s.account
      token := s.token
      amount := s.amount.toNat
      destination := s.destination
      requestID := s.requestID
      settlementID := s.settlementID
      previousSequence := s.previousSequence.toNat
      nextSequence := s.nextSequence.toNat
      previousRoot := s.previousRoot
      nextRoot := s.nextRoot
      deadline := s.deadline.toNat }

end QuietLine
