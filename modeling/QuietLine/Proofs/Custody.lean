/-
The contract holds the tokens that the ledger owes.

Two facts carry this.  The network runs the system: each of its moves is a move of the
model, with the transaction worked out from the chain, or changes nothing the model has
(`Network.Shared.step`), so what holds of every run of the model holds of the network.
And the contract counts right: what it has of a token is never less than what it took
in less what it paid out, as long as the token's `transfer` takes no more than it was
told to (`Chain.Holds`).
-/
import QuietLine.System.Network
import QuietLine.Proofs.Coverage

namespace QuietLine

open Outcome

/-! ### The network runs the system -/

section Simulation

variable {S : Setup} {n n' : Network} {move : NetworkMove}

/-- Both sides have one vault. -/
def Network.Shared (n : Network) : Prop := n.world.vault = n.chain.contract.vault

/-- A move of the network is one of the system, or none of its business. -/
theorem Network.Shared.step (h : n.Shared) (hn : n.step S move = .ok n') :
    n'.Shared ∧ ((n.project S move = none ∧ n'.world = n.world) ∨
      ∃ m, n.project S move = some m ∧ n.world.step S m = .ok n'.world) := by
  unfold Network.Shared at h ⊢
  cases move with
  | receive action =>
      obtain ⟨hw, hchain⟩ := extend_ok hn
      refine ⟨?_, Or.inr ⟨_, rfl, hw⟩⟩
      rw [hchain, ← h, ← Except.ok.inj hw]
  | advance pid a =>
      obtain ⟨hw, hchain⟩ := extend_ok hn
      refine ⟨?_, Or.inr ⟨_, rfl, hw⟩⟩
      obtain ⟨started, r, k, _, _, _, hw'⟩ := advance_ok hw
      rw [hchain, ← h, hw']
      exact (respond_frame S pid started a n.world r).1
  | restart =>
      obtain ⟨hw, hchain⟩ := extend_ok hn
      refine ⟨?_, Or.inr ⟨_, rfl, hw⟩⟩
      rw [hchain, ← h, ← Except.ok.inj hw]
  | chain move =>
      obtain ⟨hchain, hworld⟩ := chain_ok hn
      refine ⟨by rw [hworld], ?_⟩
      have hsame : n'.chain.contract.vault = n.chain.contract.vault → n'.world = n.world := by
        intro hvault
        rw [hworld, hvault, ← h]
      cases move with
      | govern env sender call =>
          obtain ⟨contract, hcontract, hch⟩ := govern_ok hchain
          refine Or.inl ⟨rfl, hsame ?_⟩
          rw [hch]
          exact govern_vault hcontract
      | receive token amount =>
          refine Or.inl ⟨rfl, hsame ?_⟩
          rw [← Except.ok.inj hchain]
      | transact env sender call =>
          obtain ⟨vault, hvault, hch⟩ := transacted_ok hchain
          refine Or.inr ⟨_, rfl, ?_⟩
          rw [← h] at hvault
          rw [hworld, hch]
          exact bind_eq_ok.mpr ⟨vault, ofVault_eq_ok.mpr hvault, rfl⟩
      | execute env sender signer settlement =>
          obtain ⟨vault, hvault, hch⟩ := executed_ok hchain
          refine Or.inr ⟨_, rfl, ?_⟩
          have hsigned : settlement ∈ n.world.signed := by
            by_contra hforged
            have hauth := (executeSettlement_ok hvault).1
            unfold World.recovers at hauth
            rw [if_neg hforged, isAuthorizedTeeSigner_zero] at hauth
            cases hauth
          rw [← h] at hvault
          rw [hworld, hch]
          refine bind_eq_ok.mpr ⟨vault, ofVault_eq_ok.mpr ?_, rfl⟩
          rw [decide_eq_true hsigned, Bool.and_true]
          exact hvault

theorem shared_start (admin operator : Address) : (Network.start admin operator).Shared := rfl

theorem Network.simulated (S : Setup) (admin operator : Address) (moves : List NetworkMove) :
    ∃ systemMoves, ((networkAfter S admin operator moves).world = worldAfter S systemMoves ∧
        (networkAfter S admin operator moves).Shared) ∧
      ∀ c' ∈ Machine.commits (World.step S) {} systemMoves,
        ∃ c ∈ Machine.commits (Network.step S) (Network.start admin operator) moves,
          c.1.project S c.2 = some c'.2 ∧ c.1.world = c'.1 ∧ c.1.Shared := by
  refine Machine.simulated (R := fun (n : Network) w => n.world = w ∧ n.Shared)
    (Network.project S) ?_ ⟨rfl, shared_start admin operator⟩ moves
  rintro n w move n' ⟨rfl, hshared⟩ hn
  obtain ⟨hshared', ⟨hproject, hworld⟩ | ⟨m, hproject, hw⟩⟩ := hshared.step hn
  · exact Or.inl ⟨hproject, hworld, hshared'⟩
  · exact Or.inr ⟨m, n'.world, hproject, hw, rfl, hshared'⟩

/-- **The contract on its chain runs the system.**  Every run of the network, with roles granted
and revoked, the contract paused, prices, registries and tokens that answer what they like, is a run
of the system's model, on the same vault; and each move the model commits in it is what the network
made of one it committed. -/
theorem network_runs_system (S : Setup) (admin operator : Address) (moves : List NetworkMove) :
    ∃ systemMoves, (networkAfter S admin operator moves).world = worldAfter S systemMoves ∧
      (networkAfter S admin operator moves).chain.contract.vault =
        (worldAfter S systemMoves).vault ∧
      ∀ c' ∈ Machine.commits (World.step S) {} systemMoves,
        ∃ c ∈ Machine.commits (Network.step S) (Network.start admin operator) moves,
          c.1.project S c.2 = some c'.2 ∧ c.1.world = c'.1 := by
  obtain ⟨systemMoves, ⟨hworld, hshared⟩, hcommits⟩ := Network.simulated S admin operator moves
  refine ⟨systemMoves, hworld, ?_, fun c' hc' => ?_⟩
  · rw [← hworld]
    exact hshared.symm
  · obtain ⟨c, hc, hproject, hsame, _⟩ := hcommits c' hc'
    exact ⟨c, hc, hproject, hsame⟩

end Simulation

/-! ### What the contract has of a token -/

/-- What the vault has taken in of a token. -/
def Vault.fundedIn (v : Vault) (token : Address) : Nat :=
  (v.fundings.map fun f => if f.token = token then f.amount else 0).sum

/-- What it has paid out of it. -/
def Vault.paidIn (v : Vault) (token : Address) : Nat :=
  (v.executed.map fun settlement =>
    if settlement.spends = some token then settlement.amount else 0).sum

/-- It has what it took in less what it paid out. -/
def Chain.Holds (ch : Chain) : Prop :=
  ∀ token, ch.contract.vault.fundedIn token ≤
    ch.balance token + ch.contract.vault.paidIn token

/-- The token's `transfer` takes no more than the amount. -/
def Honest (ch : Chain) : ChainMove → Prop
  | .execute env _ _ settlement => ∀ token ∈ settlement.spends, ∀ after ∈ env.transferred,
      ch.balance token ≤ after + settlement.amount
  | _ => True

section Holding

variable {keccak : Keccak} {cfg : Config} {tx : Tx} {v v' : Vault}

theorem paid_eq (v : Vault) (cfg : Config) (name : String) :
    v.paid cfg name = v.paidIn (cfg.tokenOf name) := by
  unfold Vault.paid Vault.paidIn
  congr 1
  refine List.map_congr_left fun settlement _ => ?_
  unfold Settlement.transfer Settlement.spends
  by_cases htype : settlement.settlementType = .checkpoint
  · simp [htype]
  · simp [htype]

/-- A funding is what came in. -/
theorem apply_brings {call : VaultCall} (h : call.apply keccak cfg tx v = .ok v') :
    (call.brings cfg = none ∧ v'.fundings = v.fundings) ∨
      ∃ f : Funding, call.brings cfg = some f.token ∧ 0 < f.amount ∧ tx.received = f.amount ∧
        v'.fundings = v.fundings ++ [f] := by
  cases call with
  | deposit token amount =>
      change v.deposit keccak cfg tx token amount = .ok v' at h
      have hreceived : tx.received = amount := by
        unfold Vault.deposit at h
        simp only [bind_eq_ok] at h
        obtain ⟨_, _, _, _, ⟨f, v₁⟩, hreceive, _⟩ := h
        exact (receiveTokens_ok hreceive).1
      obtain ⟨f, hvalid, _, _, htoken, hamount, _, rfl⟩ := vaultDeposit_ok h
      refine Or.inr ⟨f, by rw [htoken]; rfl, hvalid.positive, ?_, rfl⟩
      rw [hreceived, hamount]
  | fundBackstop amount =>
      change v.fundBackstop keccak cfg tx amount = .ok v' at h
      have hreceived : tx.received = amount := by
        unfold Vault.fundBackstop at h
        simp only [bind_eq_ok] at h
        obtain ⟨_, _, _, _, ⟨f, v₁⟩, hreceive, _⟩ := h
        exact (receiveTokens_ok hreceive).1
      obtain ⟨f, hvalid, _, htoken, hamount, _, rfl⟩ := fundBackstop_ok h
      refine Or.inr ⟨f, by rw [htoken]; rfl, hvalid.positive, ?_, rfl⟩
      rw [hreceived, hamount]
  | requestBorrow ciphertext =>
      change v.requestBorrow tx ciphertext = _ at h
      simp only [Vault.requestBorrow, bind_eq_ok] at h
      obtain ⟨_, _, _, _, price, _, hsend⟩ := h
      obtain rfl := send_ok hsend
      exact Or.inl ⟨rfl, rfl⟩
  | requestWithdrawal token amount destination =>
      change v.requestWithdrawal cfg tx token amount destination = _ at h
      simp only [Vault.requestWithdrawal, bind_eq_ok] at h
      obtain ⟨_, _, _, _, _, _, hsend⟩ := h
      obtain rfl := send_ok hsend
      exact Or.inl ⟨rfl, rfl⟩
  | requestRiskTick =>
      change v.requestRiskTick tx = _ at h
      simp only [Vault.requestRiskTick, bind_eq_ok] at h
      obtain ⟨price, _, hsend⟩ := h
      obtain rfl := send_ok hsend
      exact Or.inl ⟨rfl, rfl⟩

/-- A payout whose transfer reverts does not happen. -/
theorem executeSettlement_transfers {authorized : Bool} {settlement : Settlement}
    (h : v.executeSettlement cfg tx authorized settlement = .ok v')
    (htype : settlement.settlementType ≠ .checkpoint) : tx.transfers = true := by
  unfold Vault.executeSettlement at h
  simp only [bind_eq_ok, rejectIf_eq_ok] at h
  obtain ⟨_, _, _, _, _, _, _, _, _, _, _, _, _, _, _, htransfers, _⟩ := h
  simpa [htype] using htransfers

theorem Chain.Holds.step {ch ch' : Chain} {move : ChainMove} (h : ch.Holds)
    (hhonest : Honest ch move) (hstep : ch.step keccak cfg move = .ok ch') : ch'.Holds := by
  intro token
  have hbefore := h token
  cases move with
  | govern env sender call =>
      obtain ⟨contract, hcontract, rfl⟩ := govern_ok hstep
      rw [govern_vault hcontract]
      exact hbefore
  | receive t amount =>
      rw [← Except.ok.inj hstep]
      dsimp only
      by_cases ht : token = t
      · rw [if_pos ht]
        omega
      · rw [if_neg ht]
        exact hbefore
  | transact env sender call =>
      obtain ⟨vault, hvault, rfl⟩ := transacted_ok hstep
      have hpaid : vault.paidIn token = ch.contract.vault.paidIn token := by
        unfold Vault.paidIn
        rw [(apply_frame hvault).2.2.1]
      rw [hpaid]
      unfold Chain.settled
      dsimp only
      rcases apply_brings hvault with ⟨hbrings, hfundings⟩ |
        ⟨f, hbrings, hpositive, hreceived, hfundings⟩
      · rw [hbrings, if_neg (by simp)]
        unfold Vault.fundedIn at hbefore ⊢
        rw [hfundings]
        exact hbefore
      · -- what came in is the difference of the balances, and is not nothing
        replace hreceived : env.transferred.getD 0 - ((call.brings cfg).map ch.balance).getD 0 =
          f.amount := hreceived
        rw [hbrings] at hreceived ⊢
        simp only [Option.map_some, Option.getD_some, Option.some.injEq] at hreceived ⊢
        unfold Vault.fundedIn at hbefore ⊢
        rw [hfundings, List.map_append, List.sum_append, List.map_singleton, List.sum_singleton]
        by_cases ht : f.token = token
        · obtain rfl := ht
          rw [if_pos rfl, if_pos rfl]
          omega
        · rw [if_neg ht, if_neg ht]
          omega
  | execute env sender signer settlement =>
      obtain ⟨vault, hvault, rfl⟩ := executed_ok hstep
      obtain ⟨_, _, _, _, _, hv⟩ := executeSettlement_ok hvault
      have hfunded : vault.fundedIn token = ch.contract.vault.fundedIn token := by rw [hv]; rfl
      have hpaid : vault.paidIn token = ch.contract.vault.paidIn token +
          if settlement.spends = some token then settlement.amount else 0 := by
        rw [hv]
        unfold Vault.paidIn
        rw [List.map_append, List.sum_append, List.map_singleton, List.sum_singleton]
      rw [hfunded, hpaid]
      unfold Chain.settled
      dsimp only
      by_cases ht : settlement.spends = some token
      · rw [if_pos ht, if_pos ht]
        have htype : settlement.settlementType ≠ .checkpoint := by
          intro htype
          unfold Settlement.spends at ht
          rw [if_pos htype] at ht
          cases ht
        obtain ⟨after, hafter⟩ := Option.isSome_iff_exists.mp
          (executeSettlement_transfers hvault htype)
        have hleft := hhonest token ht after hafter
        rw [hafter, Option.getD_some]
        omega
      · rw [if_neg ht, if_neg ht]
        exact hbefore

/-- What the moves of a network are asked for: those of the system are serviced, and tokens are
honest. -/
structure Conducted (S : Setup) (n : Network) (move : NetworkMove) : Prop where
  serviced : ∀ m, n.project S move = some m → Serviced S n.world m
  honest : ∀ m, move = .chain m → Honest n.chain m

theorem Network.holds_step {S : Setup} {n n' : Network} {move : NetworkMove}
    (h : n.chain.Holds) (hguard : Conducted S n move) (hn : n.step S move = .ok n') :
    n'.chain.Holds := by
  cases move with
  | receive action | advance pid a | restart =>
      rw [(extend_ok hn).2]
      exact h
  | chain move =>
      refine h.step ?_ (chain_ok hn).1
      have hhonest := hguard.honest move rfl
      cases move with
      | execute env sender signer settlement => exact hhonest
      | _ => trivial

theorem holds_networkAfter {S : Setup} {admin operator : Address} {moves : List NetworkMove}
    (h : Machine.Meets (Network.step S) (Conducted S) (Network.start admin operator) moves) :
    (networkAfter S admin operator moves).chain.Holds :=
  Machine.invariant_of_meets (fun _ _ _ hi hg hn => Network.holds_step hi hg hn)
    (fun _ => Nat.zero_le _) moves h

end Holding

/-- **The contract holds the tokens that the ledger owes.**  In every state of every run of the
network whose moves are so conducted, and in each asset: what the ledger owes and has not lent out
and the payouts it has committed that the vault has not made yet, together, are no more than what
the contract has of the token. -/
theorem contract_holds_ledger (S : Setup) (hdistinct : S.config.fxrp ≠ S.config.usdt0)
    (admin operator : Address) (moves : List NetworkMove)
    (h : Machine.Meets (Network.step S) (Conducted S) (Network.start admin operator) moves) :
    (∀ name ∈ assetNames,
      (networkAfter S admin operator moves).world.ledger.owed name +
          ((networkAfter S admin operator moves).world.promised S name -
            (networkAfter S admin operator moves).chain.contract.vault.paid S.config name : Nat) ≤
        (networkAfter S admin operator moves).chain.balance (S.config.tokenOf name)) ∧
      Solvent (networkAfter S admin operator moves).world.ledger := by
  obtain ⟨systemMoves, ⟨hworld, hshared⟩, hcommits⟩ := Network.simulated S admin operator moves
  have hserviced : Machine.Meets (World.step S) (Serviced S) {} systemMoves := by
    intro c' hc'
    obtain ⟨c, hc, hproject, hsame, _⟩ := hcommits c' hc'
    rw [← hsame]
    exact (h c hc).serviced _ hproject
  have hcovering := covering_worldAfter hserviced
  rw [← hworld] at hcovering
  refine ⟨fun name hname => ?_, hcovering.sound.toBacked.solvent⟩
  have hheld := holds_networkAfter h (S.config.tokenOf name)
  have hbooks := hcovering.books name hname
  have hcredited := hcovering.attributed.credited_le name
  have hpaid := hcovering.paid_le hdistinct hname
  replace hcredited : _ ≤ Vault.fundedIn _ (S.config.tokenOf name) := hcredited
  rw [hshared] at hcredited hpaid
  rw [← paid_eq] at hheld
  omega

/-! ### A withdrawal on the chain -/

/-- What a sample transaction meets: account 7 is the TEE's key. -/
def sampleSurroundings (transferred : Option Nat) : Surroundings where
  timestamp := 1000
  instructionsSender _ := sampleSetup.config.vault
  signerExtensionID _ := some 0x10000
  machineStatus signer := if signer = sampleAddress 7 then some 2 else none
  feed := (2 * 10 ^ 18, 900)
  takesInstruction := true
  transferred

/-- A sample move of the system, on the chain. -/
def sampleNetworkMove : Move → NetworkMove
  | .receive action => .receive action
  | .advance pid answer => .advance pid answer
  | .restart => .restart
  | .transact tx call => .chain (.transact (sampleSurroundings (some tx.received)) tx.sender call)
  | .execute tx settlement =>
      .chain (.execute (sampleSurroundings (some 0)) tx.sender (sampleAddress 7) settlement)

/-- The extension is configured; account 10 pays in, withdraws and is paid; a stranger sends
tokens. -/
def withdrawnOnChain : List NetworkMove :=
  .chain (.govern (sampleSurroundings none) (sampleAddress 1) (.setExtensionID 0x10000)) ::
    withdrawnDeposit.map sampleNetworkMove ++ [.chain (.receive sampleSetup.config.fxrp 5)]

def honest (ch : Chain) : ChainMove → Bool
  | .execute env _ _ settlement => settlement.spends.all fun token =>
      env.transferred.all fun after => ch.balance token ≤ after + settlement.amount
  | _ => true

def conducted (S : Setup) (n : Network) (move : NetworkMove) : Bool :=
  (n.project S move).all (serviced S n.world) &&
    match move with
    | .chain m => honest n.chain m
    | _ => true

theorem conducted_of_true {S : Setup} (n : Network) (move : NetworkMove)
    (h : conducted S n move = true) : Conducted S n move := by
  unfold conducted at h
  obtain ⟨hserviced, hhonest⟩ := (Bool.and_eq_true _ _).mp h
  constructor
  · intro m hm
    rw [hm] at hserviced
    exact serviced_of_true _ _ hserviced
  · rintro m rfl
    cases m with
    | execute env sender signer settlement =>
        intro token htoken after hafter
        replace hhonest : (settlement.spends.all fun token => env.transferred.all fun after =>
          n.chain.balance token ≤ after + settlement.amount) = true := hhonest
        rw [Option.mem_def.mp htoken, Option.mem_def.mp hafter] at hhonest
        exact of_decide_eq_true hhonest
    | _ => trivial

theorem withdrawnOnChain_run :
    Machine.checks (Network.step sampleSetup) (conducted sampleSetup)
        (Network.start (sampleAddress 1) (sampleAddress 2)) withdrawnOnChain = true ∧
      (networkAfter sampleSetup (sampleAddress 1) (sampleAddress 2)
        withdrawnOnChain).chain.contract.vault.paid sampleSetup.config "FXRP" = 100 ∧
      (networkAfter sampleSetup (sampleAddress 1) (sampleAddress 2)
        withdrawnOnChain).chain.balance (sampleSetup.config.tokenOf "FXRP") = 5 := by
  decide +kernel

theorem contract_holds_ledger_withdrawn :
    (networkAfter sampleSetup (sampleAddress 1) (sampleAddress 2)
        withdrawnOnChain).chain.contract.vault.paid sampleSetup.config "FXRP" = 100 ∧
      (networkAfter sampleSetup (sampleAddress 1) (sampleAddress 2)
        withdrawnOnChain).world.ledger.owed "FXRP" ≤ 5 := by
  obtain ⟨hchecks, hpaid, hbalance⟩ := withdrawnOnChain_run
  refine ⟨hpaid, ?_⟩
  have hholds := (contract_holds_ledger sampleSetup (by decide) (sampleAddress 1) (sampleAddress 2)
    withdrawnOnChain ((Machine.meets_of_checks hchecks).mono conducted_of_true)).1 "FXRP"
    (by decide)
  rw [hbalance] at hholds
  omega

end QuietLine
