/-
When the vault executes what the extension commits.

The fields of a settlement come from the anchor, from the operation and from the
message the handler was sent.  The engine's own checks make the vault accept all of
them but one: the destination of a withdrawal from a mandate is passed on as it
came, and the vault refuses the zero address.  An anchor that moves funds cannot be
recovered, so such a settlement stops the ledger.
-/
import QuietLine.Proofs.Payouts
import QuietLine.Proofs.Steps

namespace QuietLine

open Outcome

/-! ### The checks of the vault -/

/-- What `executeSettlement` asks of the fields of a settlement. -/
structure Settlement.FieldsPass (cfg : Config) (settlement : Settlement) (v : Vault) : Prop where
  version : settlement.protocolVersion = 2
  previousSequence : settlement.previousSequence = v.stateSequence
  nextSequence : settlement.nextSequence = v.stateSequence + 1
  previousRoot : settlement.previousRoot = v.stateRoot
  nextRoot : settlement.nextRoot ≠ Hash.zero
  payment : settlement.checkPayment cfg = .ok ()
  borrow : settlement.settlementType = .borrowPayout → settlement.token = cfg.usdt0

/-- The transaction and the vault are ready for the settlement, whatever its other fields. -/
structure Settlement.Ready (settlement : Settlement) (tx : Tx) (v : Vault) : Prop where
  unused : settlement.settlementID ∉ v.usedSettlementId
  unexpired : tx.timestamp ≤ settlement.deadline
  unpaused : tx.paused = false
  covered : settlement.amount ≤ tx.liquidity
  transfers : tx.transfers = true

section Checks

variable {cfg : Config} {tx : Tx} {settlement : Settlement} {v : Vault}

/-- A payout is one of a supported token, a positive `uint64` and a destination. -/
theorem checkPayment_iff (htype : settlement.settlementType ≠ .checkpoint) :
    settlement.checkPayment cfg = .ok () ↔ cfg.supportedAsset settlement.token = true ∧
      (0 < settlement.amount ∧ settlement.amount < 2 ^ 64) ∧
        settlement.destination ≠ Address.zero := by
  unfold Settlement.checkPayment
  rw [if_neg htype]
  simp only [bind_eq_ok, rejectIf_eq_ok, not_or, Bool.not_eq_false, Nat.not_le,
    exists_const, Nat.pos_iff_ne_zero, ge_iff_le]

/-- The vault executes an authorised settlement exactly when its fields pass. -/
theorem executes_iff (h : settlement.Ready tx v) :
    (∃ v', v.executeSettlement cfg tx true settlement = .ok v') ↔
      settlement.FieldsPass cfg v := by
  have hborrow : settlement.checkBorrow cfg tx = .ok () ↔
      (settlement.settlementType = .borrowPayout → settlement.token = cfg.usdt0) := by
    unfold Settlement.checkBorrow
    by_cases htype : settlement.settlementType = .borrowPayout
    · rw [if_pos htype]
      simp [bind_eq_ok, h.unpaused, h.covered, htype]
    · rw [if_neg htype]
      simp [htype]
      rfl
  unfold Vault.executeSettlement
  simp only [bind_eq_ok, rejectIf_eq_ok, not_or, not_not, h.transfers]
  constructor
  · rintro ⟨v', _, hversion, _, _, _, _, _, ⟨hprev, hnext, hroot, hzero⟩, _, hpay, _, hb, _⟩
    exact ⟨hversion, hprev, hnext, hroot, hzero, hpay, hborrow.mp hb⟩
  · intro hf
    exact ⟨_, (), hf.version, (), h.unused, (), Nat.not_lt.mpr h.unexpired, (),
      ⟨hf.previousSequence, hf.nextSequence, hf.previousRoot, hf.nextRoot⟩, (), hf.payment, (),
      hborrow.mpr hf.borrow, (), by simp, (), by simp, rfl⟩

end Checks

/-! ### The fields of a fund movement -/

section Fields

variable {P : Platform} {cfg : Config} {host : Host} {ctx : Context} {stored : Bool}
  {op : Operation} {s s' : State} {payout : Payout}

theorem supportedAsset_of_assetForToken {token : Address} {asset : String}
    (h : assetForToken cfg token = .ok asset) : cfg.supportedAsset token = true := by
  unfold assetForToken at h
  unfold Config.supportedAsset
  by_cases hf : token = cfg.fxrp
  · simp [hf]
  · rw [if_neg hf] at h
    by_cases hu : token = cfg.usdt0
    · simp [hu]
    · rw [if_neg hu] at h
      cases h

/-- What a committed fund movement owes is a positive amount of a supported token; a borrower is
paid in USDT0. -/
theorem Operation.Owes.payable (howes : op.Owes P cfg payout) (hfunds : op.kind.movesFunds = true)
    (hs : op.apply .wrapping host ctx stored s = .ok s') :
    payout.settlementType ≠ .checkpoint ∧ cfg.supportedAsset payout.token = true ∧
      0 < payout.amount.toNat ∧
      (payout.settlementType = .borrowPayout → payout.token = cfg.usdt0) := by
  obtain ⟨_, hvalid, next, hbody, _⟩ := Operation.apply_ok hs
  have hpos : ∀ {amount : UInt64}, amount ≠ 0 → 0 < amount.toNat := toNat_pos_of_ne_zero
  have husdt0 : cfg.supportedAsset cfg.usdt0 = true := by simp [Config.supportedAsset]
  cases op with
  | acceptQuote q loanID n observed =>
      obtain ⟨htype, htoken, hamount, _⟩ := howes
      have haccept : QuietLine.acceptQuote .wrapping host ctx q loanID n observed s = .ok next := hbody
      obtain ⟨_, _, _, haccepted, _⟩ := acceptQuote_ok haccept
      refine ⟨by rw [htype]; decide, by rw [htoken]; exact husdt0, ?_, fun _ => htoken⟩
      rw [hamount]
      exact haccepted.funded.amount_pos
  | withdraw owner asset amount id n =>
      obtain ⟨htype, htoken, hamount, _⟩ := howes
      have hne : ¬ (amount = 0 ∨ Asset.ofName asset = none) := rejectIf_eq_ok.mp hvalid
      refine ⟨by rw [htype]; decide, supportedAsset_of_assetForToken htoken, ?_, ?_⟩
      · rw [hamount]
        exact hpos (not_or.mp hne).1
      · intro hborrow
        rw [htype] at hborrow
        cases hborrow
  | withdrawFromMandate owner mandateID amount id n =>
      obtain ⟨htype, htoken, hamount, _⟩ := howes
      have hne : ¬ amount = 0 := rejectIf_eq_ok.mp hvalid
      refine ⟨by rw [htype]; decide, by rw [htoken]; exact husdt0, ?_, fun _ => htoken⟩
      rw [hamount]
      exact hpos hne
  | _ => cases hfunds

end Fields

/-! ### The settlements the system builds -/

/-- The settlement of a committed fund movement, for any reading of the clock and for any vault
that stands at the anchor's previous state, given that the digest of the new state is not the zero
word. -/
structure Builds (S : Setup) (c : State × Call) (op : Operation) (payout : Payout) (v : Vault)
    (settlement : Settlement) : Prop where
  operates : c.2.Operates op
  movesFunds : op.kind.movesFunds = true
  grounds : Grounds S.platform S.config c.2.action c.2.trace op payout
  built : ∃ s' p now, callStep S.host c.1 c.2 = .ok s' ∧ s'.pendingAnchor = some p ∧
    v.At p.previousSequence p.previousRoot ∧ hexToHash p.nextRoot ≠ Hash.zero ∧
    settlement = p.settlement S.platform.keccak256 c.2.action.id payout now

/-- Every fund movement the system has committed is one the vault will execute. -/
def FundsExecutable (S : Setup) (w : World) : Prop :=
  ∀ c ∈ w.commits S, ∀ op payout v settlement, Builds S c op payout v settlement →
    settlement.FieldsPass S.config v

/-- The message is one `requestWithdrawal` has emitted. -/
def EmittedWithdrawal (cfg : Config) (message : List UInt8) : Prop :=
  ∃ tx token amount destination v v', Vault.requestWithdrawal cfg tx token amount destination v =
    .ok v' ∧ message = withdrawalMessage tx.sender token amount destination

/-- `requestWithdrawal` names a destination. -/
theorem EmittedWithdrawal.destination {cfg : Config} {message : List UInt8}
    (h : EmittedWithdrawal cfg message) {sender token destination : Address} {amount : UInt64}
    (hdecoded : decodeWithdrawal message = .ok (sender, token, amount, destination)) :
    destination ≠ Address.zero := by
  obtain ⟨tx, token', amount', destination', v, v', hrequest, rfl⟩ := h
  unfold Vault.requestWithdrawal at hrequest
  simp only [bind_eq_ok, rejectIf_eq_ok] at hrequest
  obtain ⟨_, _, _, _, _, hzero, _⟩ := hrequest
  have hread : Abi.addressAt 3 (withdrawalMessage tx.sender token' amount' destination' ++ []) =
      some destination' := Abi.addressAt_pack rfl
  rw [List.append_nil] at hread
  unfold decodeWithdrawal at hdecoded
  simp only [bind_eq_ok, orElse_eq_ok] at hdecoded
  obtain ⟨_, _, _, _, _, _, d, hd, _, _, heq⟩ := hdecoded
  cases heq
  rw [hread] at hd
  cases hd
  exact hzero

theorem Builds.fieldsPass_iff {S : Setup} {c : State × Call} {op : Operation} {payout : Payout}
    {v : Vault} {settlement : Settlement} (h : Builds S c op payout v settlement) :
    settlement.FieldsPass S.config v ↔ payout.destination ≠ Address.zero := by
  obtain ⟨⟨ctx, stored, hevent⟩, hfunds, hgrounds, s', p, now, hs, hp, hat, hroot, rfl⟩ := h
  have hstep : op.apply .wrapping S.host ctx stored c.1 = .ok s' := by
    unfold callStep at hs
    rw [hevent] at hs
    exact hs
  obtain ⟨htype, htoken, hpos, hborrow⟩ := hgrounds.owes.payable hfunds hstep
  obtain ⟨_, _, next, _, rfl⟩ := Operation.apply_ok hstep
  cases hp
  constructor
  · intro hpass
    exact ((checkPayment_iff htype).mp hpass.payment).2.2
  · intro hdestination
    exact ⟨rfl, hat.1.symm, congrArg (· + 1) hat.1.symm, hat.2.symm, hroot,
      (checkPayment_iff htype).mpr ⟨htoken, ⟨hpos, payout.amount.toNat_lt⟩, hdestination⟩, hborrow⟩

/-- **A committed fund movement is executable exactly when it names a destination**, and a
withdrawal that the vault itself has emitted does. -/
theorem executable_iff_destination (S : Setup) (moves : List Move) :
    ∀ c ∈ (worldAfter S moves).commits S, ∀ op payout v settlement,
      Builds S c op payout v settlement →
        (settlement.FieldsPass S.config v ↔ payout.destination ≠ Address.zero) ∧
        (∀ tx, settlement.Ready tx v →
          ((∃ v', v.executeSettlement S.config tx true settlement = .ok v') ↔
            payout.destination ≠ Address.zero)) ∧
        (op.kind = .withdrawRequest →
          (∀ df, InstructionOf S.platform c.2.action "WITHDRAW_REQUEST" df →
            EmittedWithdrawal S.config df.originalMessage) →
          payout.destination ≠ Address.zero) := by
  intro c _ op payout v settlement hbuilds
  have hfields := hbuilds.fieldsPass_iff
  refine ⟨hfields, fun tx hready => (executes_iff hready).trans hfields, ?_⟩
  intro hkind hemitted
  cases hbuilds.grounds with
  | withdrawal sent decoded supported => exact (hemitted _ sent).destination decoded
  | _ => cases hkind

/-! ### A withdrawal to nowhere -/

/-- The signed withdrawal of a mandate's 50 USDT0. -/
def mandateWithdrawal (destination : UInt8) : Action :=
  sampleAction 3 .direct "WITHDRAW_FROM_MANDATE"
    (sampleSigned 10 1 "WITHDRAW_FROM_MANDATE" [50, destination])

/-- A lender deposits USDT0, offers 50 of it and withdraws the offer to this destination. -/
def mandateWithdrawn (destination : UInt8) : List Move :=
  mandateSettled ++ [.receive (mandateWithdrawal destination)] ++ sampleAdvance 4 7

/-- What the run is expected to commit last. -/
def commitsWithdrawal (destination : UInt8) (c : State × Call) : Bool :=
  c.1.sequence = 2 && c.2.action = mandateWithdrawal destination &&
    match c.2.event with
    | .operate _ _ op => op.kind = .withdrawFromMandate
    | .confirm .. => false

theorem mandateWithdrawal_destination {destination : UInt8} {t : Trace} {op : Operation}
    {payout : Payout}
    (h : Grounds samplePlatform sampleSetup.config (mandateWithdrawal destination) t op payout)
    (hkind : op.kind = .withdrawFromMandate) : payout.destination = sampleAddress destination := by
  cases h with
  | withdrawFromMandate _ authorised _ parsed =>
      obtain rfl := Option.some.inj authorised.carried
      obtain rfl := Option.some.inj parsed
      rfl
  | _ => cases hkind

/-- Under the sample host no root is the zero word. -/
theorem rootOf_sampleHost (s : State) (h : s.sequence = 3) :
    hexToHash (rootOf sampleHost s) ≠ Hash.zero := by
  have hroot : rootOf sampleHost s = Hash.hex (Bytes.Fixed.ofList 32 (Bytes.bigEndian 8 3)) := by
    rw [← h]
    rfl
  rw [hroot, hexToHash_hex]
  decide

theorem mandateWithdrawn_builds {d : UInt8}
    (hcommitted : ((worldAfter sampleSetup (mandateWithdrawn d)).commits sampleSetup).any
      (commitsWithdrawal d) = true) :
    ∃ c ∈ (worldAfter sampleSetup (mandateWithdrawn d)).commits sampleSetup,
      ∃ op payout v settlement, Builds sampleSetup c op payout v settlement ∧
        payout.destination = sampleAddress d := by
  obtain ⟨⟨s, pid, action, trace, event⟩, hc, hcommit⟩ := List.any_eq_true.mp hcommitted
  simp only [commitsWithdrawal, Bool.and_eq_true, decide_eq_true_eq] at hcommit
  obtain ⟨⟨hsequence, rfl⟩, hevent⟩ := hcommit
  cases event with
  | confirm => cases hevent
  | operate ctx stored op =>
      replace hevent : op.kind = .withdrawFromMandate := of_decide_eq_true hevent
      obtain ⟨payout, hgrounds⟩ := ((coherent_worldAfter sampleSetup
        (mandateWithdrawn d)).commits _ hc ctx stored op rfl).grounds
      obtain ⟨_, _, s', _, _, hs⟩ := Machine.exists_prefix_of_mem_commits hc
      have happly : op.apply .wrapping sampleHost ctx stored s = .ok s' := hs
      obtain ⟨_, _, next, _, hs'⟩ := Operation.apply_ok happly
      obtain ⟨p, hp, hprev, hprevRoot, hnextRoot⟩ : ∃ p, s'.pendingAnchor = some p ∧
          p.previousSequence = s.sequence ∧ p.previousRoot = s.root ∧
            p.nextRoot = rootOf sampleHost { next with sequence := s.sequence + 1 } := by
        rw [hs']
        exact ⟨_, rfl, rfl, rfl, rfl⟩
      refine ⟨_, hc, op, payout, { stateSequence := s.sequence, stateRoot := hexToHash s.root }, _,
        ⟨⟨ctx, stored, rfl⟩, by rw [hevent]; rfl, hgrounds, s', p, 0, hs, hp, ⟨hprev.symm, ?_⟩, ?_,
          rfl⟩, mandateWithdrawal_destination hgrounds hevent⟩
      · rw [hprevRoot]
      · rw [hnextRoot]
        exact rootOf_sampleHost _ (by dsimp only; rw [hsequence])

/-- The zero address is committed and signed for, and the vault will not pay it. -/
theorem mandateWithdrawn_stuck :
    ¬ FundsExecutable sampleSetup (worldAfter sampleSetup (mandateWithdrawn 0)) := by
  intro h
  obtain ⟨c, hc, op, payout, v, settlement, hbuilds, hdestination⟩ :=
    mandateWithdrawn_builds (d := 0) (by decide +kernel)
  refine hbuilds.fieldsPass_iff.mp (h c hc op payout v settlement hbuilds) ?_
  rw [hdestination]
  decide

/-- Any other address is paid. -/
theorem executable_iff_destination_lender :
    ∃ c ∈ (worldAfter sampleSetup (mandateWithdrawn 11)).commits sampleSetup,
      ∃ op payout v settlement, Builds sampleSetup c op payout v settlement ∧
        settlement.FieldsPass sampleSetup.config v := by
  obtain ⟨c, hc, op, payout, v, settlement, hbuilds, hdestination⟩ :=
    mandateWithdrawn_builds (d := 11) (by decide +kernel)
  refine ⟨c, hc, op, payout, v, settlement, hbuilds, ?_⟩
  refine (executable_iff_destination sampleSetup (mandateWithdrawn 11) c hc op payout v settlement
    hbuilds).1.mpr ?_
  rw [hdestination]
  decide

end QuietLine
