/-
The signed message of a settlement (`packSettlement`, `settlementHash`).

The extension and the contract list the seventeen fields apart from each other, at the
widths of their languages.  The two lists of typed words are one, and since all the words are
static a message is told by its bytes; that the encoding tells its arguments is the
library's `Abi.encode_inj`.
-/
import QuietLine.Extension.Handlers
import QuietLine.Extension.Settlement
import QuietLine.Proofs.Fundings

namespace QuietLine

open Abi

/-- The fields are within the types the contract declares. -/
structure Settlement.InRange (settlement : Settlement) : Prop where
  amount : settlement.amount < 2 ^ 256
  previousSequence : settlement.previousSequence < 2 ^ 64
  nextSequence : settlement.nextSequence < 2 ^ 64
  deadline : settlement.deadline < 2 ^ 64

section Messages

variable {keccak : Keccak} {chainID chainID' extensionID extensionID' : Nat}
  {vault vault' : Address} {settlement settlement' : Settlement}

theorem SettlementType.toNat_inj {a b : SettlementType} (h : a.toNat = b.toNat) : a = b := by
  cases a <;> cases b <;> simp_all [SettlementType.toNat]

theorem SettlementType.ofUInt8_toNat {n : UInt8} {t : SettlementType}
    (h : SettlementType.ofUInt8 n = some t) : n.toNat = t.toNat := by
  unfold SettlementType.ofUInt8 at h
  split at h
  · obtain rfl := Option.some.inj h
    simp_all [SettlementType.toNat]
  · split at h
    · obtain rfl := Option.some.inj h
      simp_all [SettlementType.toNat]
    · split at h
      · obtain rfl := Option.some.inj h
        simp_all [SettlementType.toNat]
      · cases h

/-- The values the extension packs are the arguments the contract encodes. -/
theorem values_eq_arguments {cfg : Config} {extension : UInt64} {s : WireSettlement}
    (h : s.onChain = some settlement) :
    s.values keccak cfg extension =
      settlement.arguments keccak cfg.chainID.toNat cfg.vault extension.toNat := by
  unfold WireSettlement.onChain at h
  obtain ⟨t, ht, rfl⟩ := Option.map_eq_some_iff.mp h
  simp [WireSettlement.values, Settlement.arguments, settlementDomain,
    SettlementType.ofUInt8_toNat ht]

theorem arguments_inRange (hchain : chainID < 2 ^ 256) (hextension : extensionID < 2 ^ 256)
    (h : settlement.InRange) :
    ∀ v ∈ settlement.arguments keccak chainID vault extensionID, v.InRange := by
  have hversion : settlement.protocolVersion.toNat < 2 ^ 8 := settlement.protocolVersion.toNat_lt
  have htype : settlement.settlementType.toNat < 2 ^ 8 := by
    cases settlement.settlementType <;> simp [SettlementType.toNat]
  simp only [Settlement.arguments, List.forall_mem_cons, Arg.InRange, true_and]
  exact ⟨⟨le_rfl, hchain⟩, ⟨le_rfl, hextension⟩, ⟨by decide, hversion⟩, ⟨by decide, htype⟩,
    ⟨le_rfl, h.amount⟩, ⟨by decide, h.previousSequence⟩, ⟨by decide, h.nextSequence⟩,
    ⟨by decide, h.deadline⟩, by simp⟩

/-- **A preimage tells the chain, the vault, the extension and the settlement.** -/
theorem preimage_inj (hchain : chainID < 2 ^ 256) (hchain' : chainID' < 2 ^ 256)
    (hextension : extensionID < 2 ^ 256) (hextension' : extensionID' < 2 ^ 256)
    (hs : settlement.InRange) (hs' : settlement'.InRange)
    (h : settlement.preimage keccak chainID vault extensionID =
      settlement'.preimage keccak chainID' vault' extensionID') :
    chainID = chainID' ∧ vault = vault' ∧ extensionID = extensionID' ∧
      settlement = settlement' := by
  have hargs := encode_inj (by rfl) (arguments_inRange hchain hextension hs)
    (arguments_inRange hchain' hextension' hs') h
  simp only [Settlement.arguments, List.cons.injEq, Arg.uint.injEq, Arg.address.injEq,
    Arg.bytes32.injEq, true_and, and_true] at hargs
  obtain ⟨hchain, hvault, hextension, hversion, htype, haccount, htoken, hamount, hdestination,
    hrequest, hid, hprevious, hnext, hprevRoot, hnextRoot, hdeadline⟩ := hargs
  refine ⟨hchain, hvault, hextension, ?_⟩
  cases settlement
  cases settlement'
  simp only [Settlement.mk.injEq]
  exact ⟨UInt8.toNat_inj.mp hversion, SettlementType.toNat_inj htype, haccount, htoken, hamount,
    hdestination, hrequest, hid, hprevious, hnext, hprevRoot, hnextRoot, hdeadline⟩

/-- What the extension can write is in range. -/
theorem WireSettlement.onChain_inRange {s : WireSettlement} (h : s.onChain = some settlement) :
    settlement.InRange := by
  unfold WireSettlement.onChain at h
  obtain ⟨t, _, rfl⟩ := Option.map_eq_some_iff.mp h
  have hamount := s.amount.toNat_lt
  exact ⟨by dsimp only; omega, s.previousSequence.toNat_lt, s.nextSequence.toNat_lt,
    s.deadline.toNat_lt⟩

/-- What `anchorSettlement` draws up can be written, its sequence numbers being `uint64`. -/
theorem PendingAnchor.settlement_onChain {pending : PendingAnchor} {requestID : Hash}
    {payout : Payout} {now : Int} (hprevious : pending.previousSequence < 2 ^ 64)
    (hnext : pending.nextSequence < 2 ^ 64) :
    ∃ s : WireSettlement, s.onChain = some (pending.settlement keccak requestID payout now) := by
  have htype : SettlementType.ofUInt8 (UInt8.ofNat payout.settlementType.toNat) =
      some payout.settlementType := by
    cases payout.settlementType <;> rfl
  refine ⟨{ protocolVersion := 2
            settlementType := UInt8.ofNat payout.settlementType.toNat
            account := payout.account
            token := payout.token
            amount := payout.amount
            destination := payout.destination
            requestID
            settlementID := (pending.settlement keccak requestID payout now).settlementID
            previousSequence := UInt64.ofNat pending.previousSequence
            nextSequence := UInt64.ofNat pending.nextSequence
            previousRoot := hexToHash pending.previousRoot
            nextRoot := hexToHash pending.nextRoot
            deadline := unixUint64 (now + 600) }, ?_⟩
  simp [WireSettlement.onChain, htype, PendingAnchor.settlement]
  exact ⟨hprevious, hnext⟩

/-- The digest the contract recovers a signer from. -/
def settlementDigest (keccak : Keccak) (chainID : Nat) (vault : Address) (extensionID : Nat)
    (settlement : Settlement) : Hash :=
  toEthSignedMessageHash keccak (settlementHash keccak chainID vault extensionID settlement)

/-- What is hashed on the way to it. -/
def settlementPreimages (keccak : Keccak) (chainID : Nat) (vault : Address) (extensionID : Nat)
    (settlement : Settlement) : List (List UInt8) := [
  settlement.preimage keccak chainID vault extensionID,
  Bytes.utf8 "\x19Ethereum Signed Message:\n32" ++
    (settlementHash keccak chainID vault extensionID settlement).toList]

/-- Where nothing hashed collides, a digest comes from one preimage. -/
theorem preimage_of_digest (hfree : CollisionFree keccak
      (settlementPreimages keccak chainID vault extensionID settlement ++
        settlementPreimages keccak chainID' vault' extensionID' settlement'))
    (h : settlementDigest keccak chainID vault extensionID settlement =
      settlementDigest keccak chainID' vault' extensionID' settlement') :
    settlement.preimage keccak chainID vault extensionID =
      settlement'.preimage keccak chainID' vault' extensionID' := by
  have hlongered := hfree _ (by simp [settlementPreimages]) _ (by simp [settlementPreimages]) h
  have hhash := List.Vector.toList_injective (List.append_cancel_left hlongered)
  exact hfree _ (by simp [settlementPreimages]) _ (by simp [settlementPreimages]) hhash

end Messages

/-- **Signer and verifier agree on the message, and it is unambiguous.**  What the extension signs
is what the contract hashes; and among settlements in range, on any chains, vaults and extensions,
the message tells which one it is, and so does the digest a signature is recovered from. -/
theorem settlement_message (keccak : Keccak) :
    (∀ (cfg : Config) (extensionID : UInt64) (s : WireSettlement) (settlement : Settlement),
      s.onChain = some settlement →
      packSettlement keccak cfg extensionID s =
        some (settlement.preimage keccak cfg.chainID.toNat cfg.vault extensionID.toNat)) ∧
    (∀ (chainID chainID' extensionID extensionID' : Nat) (vault vault' : Address)
      (settlement settlement' : Settlement),
      chainID < 2 ^ 256 → chainID' < 2 ^ 256 → extensionID < 2 ^ 256 → extensionID' < 2 ^ 256 →
      settlement.InRange → settlement'.InRange →
      (settlement.preimage keccak chainID vault extensionID =
          settlement'.preimage keccak chainID' vault' extensionID' ∨
        CollisionFree keccak (settlementPreimages keccak chainID vault extensionID settlement ++
          settlementPreimages keccak chainID' vault' extensionID' settlement') ∧
        settlementDigest keccak chainID vault extensionID settlement =
          settlementDigest keccak chainID' vault' extensionID' settlement') →
      chainID = chainID' ∧ vault = vault' ∧ extensionID = extensionID' ∧
        settlement = settlement') := by
  constructor
  · intro cfg extensionID s settlement h
    unfold packSettlement Settlement.preimage
    rw [encodeAs_of_ty (by rfl), values_eq_arguments h]
  · intro chainID chainID' extensionID extensionID' vault vault' settlement settlement' hchain
      hchain' hextension hextension' hs hs' h
    rcases h with hpreimage | ⟨hfree, hdigest⟩
    · exact preimage_inj hchain hchain' hextension hextension' hs hs' hpreimage
    · exact preimage_inj hchain hchain' hextension hextension' hs hs'
        (preimage_of_digest hfree hdigest)

/-! ### Two payouts -/

/-- A digest that tells the messages of the two apart. -/
def rollingDigest : Keccak := fun bytes =>
  let rolled := bytes.foldl (fun digest b => (257 * digest + b.toNat + 1) % 2 ^ 256) 0
  Bytes.Fixed.ofList 32 (Bytes.bigEndian 32 rolled)

/-- Twenty units, borrowed and paid to this address. -/
def wirePayout (destination : UInt8) : WireSettlement where
  protocolVersion := 2
  settlementType := 0
  account := Bytes.Fixed.ofList 20 [10]
  token := Bytes.Fixed.ofList 20 [92]
  amount := 20
  destination := Bytes.Fixed.ofList 20 [destination]
  requestID := Bytes.Fixed.ofList 32 [1]
  settlementID := Bytes.Fixed.ofList 32 [2]
  previousSequence := 0
  nextSequence := 1
  previousRoot := Bytes.Fixed.ofList 32 [3]
  nextRoot := Bytes.Fixed.ofList 32 [4]
  deadline := 1600

def borrowPayout (destination : UInt8) : Settlement where
  settlementType := .borrowPayout
  account := Bytes.Fixed.ofList 20 [10]
  token := Bytes.Fixed.ofList 20 [92]
  amount := 20
  destination := Bytes.Fixed.ofList 20 [destination]
  requestID := Bytes.Fixed.ofList 32 [1]
  settlementID := Bytes.Fixed.ofList 32 [2]
  previousSequence := 0
  nextSequence := 1
  previousRoot := Bytes.Fixed.ofList 32 [3]
  nextRoot := Bytes.Fixed.ofList 32 [4]
  deadline := 1600

def payoutConfig : Config where
  chainID := 114
  vault := Bytes.Fixed.ofList 20 [90]
  fxrp := Bytes.Fixed.ofList 20 [91]
  usdt0 := Bytes.Fixed.ofList 20 [92]

theorem wirePayout_onChain (destination : UInt8) :
    (wirePayout destination).onChain = some (borrowPayout destination) :=
  rfl

theorem payouts_collisionFree : CollisionFree rollingDigest
    (settlementPreimages rollingDigest 114 payoutConfig.vault 65536 (borrowPayout 11) ++
      settlementPreimages rollingDigest 114 payoutConfig.vault 65536 (borrowPayout 12)) := by
  unfold CollisionFree
  decide +kernel

/-- Both are packed as the contract encodes them, and what is signed for the one is not what is
signed for the other. -/
theorem settlement_message_payouts :
    packSettlement rollingDigest payoutConfig 65536 (wirePayout 11) =
        some ((borrowPayout 11).preimage rollingDigest 114 payoutConfig.vault 65536) ∧
      packSettlement rollingDigest payoutConfig 65536 (wirePayout 12) =
        some ((borrowPayout 12).preimage rollingDigest 114 payoutConfig.vault 65536) ∧
      (borrowPayout 11).preimage rollingDigest 114 payoutConfig.vault 65536 ≠
        (borrowPayout 12).preimage rollingDigest 114 payoutConfig.vault 65536 ∧
      settlementDigest rollingDigest 114 payoutConfig.vault 65536 (borrowPayout 11) ≠
        settlementDigest rollingDigest 114 payoutConfig.vault 65536 (borrowPayout 12) := by
  obtain ⟨hpacks, htells⟩ := settlement_message rollingDigest
  have hapart : borrowPayout 11 ≠ borrowPayout 12 := by decide
  have htells := htells 114 114 65536 65536 payoutConfig.vault payoutConfig.vault (borrowPayout 11)
    (borrowPayout 12) (by decide) (by decide) (by decide) (by decide)
    (WireSettlement.onChain_inRange (wirePayout_onChain 11))
    (WireSettlement.onChain_inRange (wirePayout_onChain 12))
  refine ⟨hpacks payoutConfig 65536 _ _ (wirePayout_onChain 11),
    hpacks payoutConfig 65536 _ _ (wirePayout_onChain 12), fun heq => ?_, fun heq => ?_⟩
  · exact hapart (htells (Or.inl heq)).2.2.2
  · exact hapart (htells (Or.inr ⟨payouts_collisionFree, heq⟩)).2.2.2

end QuietLine
