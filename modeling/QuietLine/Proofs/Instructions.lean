/-
What the vault sends, the extension reads.

A transaction packs its arguments into the message of an instruction; the handler of
the command unpacks them.  The two are written by hand, on either side of the chain,
and each command is one round trip (`decodeBorrow_message`, …).  Over a run they add up
to one correspondence: the instructions the vault has sent are those of the transactions
it accepted, in that order, and the extension reads from each what was asked for.
-/
import QuietLine.Proofs.Credits
import QuietLine.System.Network

namespace QuietLine

open Outcome Abi

/-! ### Round trips -/

section Messages

variable {sender token destination : Address} {amount : Nat}

/-- A withdrawal reads back. -/
theorem decodeWithdrawal_message (hfits : amount < 2 ^ 64) :
    decodeWithdrawal (withdrawalMessage sender token amount destination) =
      .ok (sender, token, UInt64.ofNat amount, destination) := by
  have h0 : addressAt 0 (withdrawalMessage sender token amount destination ++ []) = some sender :=
    addressAt_pack rfl
  have h1 : addressAt 1 (withdrawalMessage sender token amount destination ++ []) = some token :=
    addressAt_pack rfl
  have h2 : uintAt 2 (withdrawalMessage sender token amount destination ++ []) = some amount :=
    uintAt_pack (by omega) rfl
  have h3 : addressAt 3 (withdrawalMessage sender token amount destination ++ []) =
      some destination := addressAt_pack rfl
  rw [List.append_nil] at h0 h1 h2 h3
  unfold decodeWithdrawal
  simp only [h0, h1, h2, h3, Outcome.orElse, ok_bind, amountUint64_ofNat hfits]
  rfl

/-- A price reads back. -/
theorem decodeRisk_message (price : UInt64 × UInt64) :
    decodeRisk (Bytes.pack [uintWord price.1.toNat, uintWord price.2.toNat]) = .ok price := by
  have h0 : uint64At 0 (Bytes.pack [uintWord price.1.toNat, uintWord price.2.toNat] ++ []) =
      some price.1 := uint64At_pack rfl
  have h1 : uint64At 1 (Bytes.pack [uintWord price.1.toNat, uintWord price.2.toNat] ++ []) =
      some price.2 := uint64At_pack rfl
  rw [List.append_nil] at h0 h1
  unfold decodeRisk
  simp only [h0, h1, Outcome.orElse, ok_bind]
  rfl

/-- An acceptance reads back: its head is four words, behind which the ciphertext lies. -/
theorem decodeBorrow_message {ciphertext : List UInt8} (hlen : ciphertext.length < 2 ^ 256)
    (price : UInt64 × UInt64) :
    decodeBorrow (borrowMessage sender ciphertext price) =
      .ok (sender, ciphertext, price.1, price.2) := by
  have hhead : 32 * [addressWord sender, uintWord 128, uintWord price.1.toNat,
      uintWord price.2.toNat].length < 2 ^ 256 := by
    have hfour : 32 * 4 < 2 ^ 256 := by decide
    exact hfour
  unfold decodeBorrow borrowMessage
  dsimp only
  rw [addressAt_pack (a := sender) rfl, bytesAt_pack hlen hhead rfl,
    uint64At_pack (n := price.1) rfl, uint64At_pack (n := price.2) rfl]
  rfl

end Messages

/-! ### What is asked for -/

/-- The feed's price at the transaction, in millionths: not nothing, and no older than five
minutes. -/
structure Surroundings.Quotes (env : Surroundings) (price : UInt64 × UInt64) : Prop where
  priced : env.feed.1 ≠ 0
  value : price.1.toNat = env.feed.1 / 10 ^ 12
  stamped : price.2 = env.feed.2
  past : price.2.toNat ≤ env.timestamp
  fresh : env.timestamp ≤ price.2.toNat + 300

theorem currentXrpUsdPrice_ok {env : Surroundings} {price : UInt64 × UInt64}
    (h : env.currentXrpUsdPrice = .ok price) : env.Quotes price := by
  unfold Surroundings.currentXrpUsdPrice at h
  simp only [bind_eq_ok, rejectIf_eq_ok, not_or, Nat.not_lt] at h
  obtain ⟨_, ⟨hpriced, hfits⟩, _, ⟨hpast, hfresh⟩, hprice⟩ := h
  cases hprice
  have hlt : env.feed.1 / 10 ^ 12 < 2 ^ 64 := by omega
  refine ⟨hpriced, UInt64.toNat_ofNat_of_lt' hlt, rfl, hpast, ?_⟩
  unfold maxOracleAge at hfresh
  dsimp only
  omega

/-- The extension reads from the instruction what the call asked for. -/
def VaultCall.ReadFrom (keccak : Keccak) (cfg : Config) (c : Contract) (env : Surroundings)
    (sender : Address) (i : Instruction) : VaultCall → Prop
  | .deposit token amount => i.opCommand = toHash "DEPOSIT" ∧ amount < 2 ^ 64 ∧
      decodeDeposit i.message = .ok (sender, token, UInt64.ofNat amount,
        Funding.depositID keccak cfg
          { isBackstop := false, account := sender, token, amount
            nonce := c.vault.depositNonce + 1 })
  | .fundBackstop amount => i.opCommand = toHash "BACKSTOP_DEPOSIT" ∧ amount < 2 ^ 64 ∧
      decodeBackstopDeposit i.message = .ok (sender, UInt64.ofNat amount,
        Funding.depositID keccak cfg
          { isBackstop := true, account := sender, token := cfg.usdt0, amount
            nonce := c.vault.depositNonce + 1 })
  | .requestBorrow ciphertext => i.opCommand = toHash "BORROW_ACCEPT" ∧ ∃ price,
      env.Quotes price ∧ (ciphertext.length < 2 ^ 256 →
        decodeBorrow i.message = .ok (sender, ciphertext, price.1, price.2))
  | .requestWithdrawal token amount destination => i.opCommand = toHash "WITHDRAW_REQUEST" ∧
      amount < 2 ^ 64 ∧ destination ≠ Address.zero ∧
      decodeWithdrawal i.message = .ok (sender, token, UInt64.ofNat amount, destination)
  | .requestRiskTick => i.opCommand = toHash "RISK_TICK" ∧ ∃ price, env.Quotes price ∧
      decodeRisk i.message = .ok price

/-- The move is a call that was asked for, and the instruction says so. -/
def ChainMove.Sends (keccak : Keccak) (cfg : Config) (ch : Chain) (i : Instruction) :
    ChainMove → Prop
  | .transact env sender call => call.ReadFrom keccak cfg ch.contract env sender i
  | _ => False

/-- The move asks something of the extension. -/
def ChainMove.isTransact : ChainMove → Bool
  | .transact .. => true
  | _ => false

section Runs

variable {keccak : Keccak} {cfg : Config} {ch ch' : Chain}

/-- An accepted call sends one instruction, which says what it asks for. -/
theorem transacted_sends {env : Surroundings} {sender : Address} {call : VaultCall}
    (h : ch.step keccak cfg (.transact env sender call) = .ok ch') :
    ∃ i, ch'.contract.vault.sent = ch.contract.vault.sent ++ [i] ∧
      call.ReadFrom keccak cfg ch.contract env sender i := by
  obtain ⟨vault, hvault, rfl⟩ := transacted_ok h
  cases call with
  | deposit token amount =>
      have hcall : ch.contract.vault.deposit keccak cfg _ token amount = .ok vault := hvault
      obtain ⟨f, hvalid, hkind, haccount, htoken, hamount, hnonce, rfl⟩ := vaultDeposit_ok hcall
      obtain ⟨isBackstop, account, token', amount', nonce⟩ := f
      cases hkind
      cases haccount
      cases htoken
      cases hamount
      cases hnonce
      exact ⟨_, rfl, rfl, hvalid.fits, decodeDeposit_message hvalid⟩
  | fundBackstop amount =>
      change ch.contract.vault.fundBackstop keccak cfg _ amount = .ok vault at hvault
      unfold Vault.fundBackstop at hvault
      simp only [bind_eq_ok, rejectIf_eq_ok, not_or] at hvault
      obtain ⟨_, _, _, ⟨hpositive, hfits⟩, ⟨f, v⟩, hreceive, hsend⟩ := hvault
      obtain ⟨_, hnonce, rfl, rfl⟩ := receiveTokens_ok hreceive
      obtain rfl := send_ok hsend
      have hlt : amount < 2 ^ 64 := Nat.lt_of_not_ge hfits
      refine ⟨_, rfl, rfl, hlt, ?_⟩
      exact decodeBackstopDeposit_message
        ⟨by simp [Config.supportedAsset], Nat.pos_of_ne_zero hpositive, hlt, hnonce⟩
  | requestBorrow ciphertext =>
      change ch.contract.vault.requestBorrow _ ciphertext = .ok vault at hvault
      simp only [Vault.requestBorrow, bind_eq_ok] at hvault
      obtain ⟨_, _, _, _, price, hprice, hsend⟩ := hvault
      obtain rfl := send_ok hsend
      refine ⟨⟨toHash "BORROW_ACCEPT", borrowMessage sender ciphertext price⟩, rfl, rfl, price,
        currentXrpUsdPrice_ok hprice, ?_⟩
      exact fun hlen => decodeBorrow_message hlen price
  | requestWithdrawal token amount destination =>
      change ch.contract.vault.requestWithdrawal cfg _ token amount destination = .ok vault
        at hvault
      simp only [Vault.requestWithdrawal, bind_eq_ok, rejectIf_eq_ok, not_or] at hvault
      obtain ⟨_, _, _, ⟨_, hfits⟩, _, hdestination, hsend⟩ := hvault
      obtain rfl := send_ok hsend
      have hlt : amount < 2 ^ 64 := Nat.lt_of_not_ge hfits
      refine ⟨⟨toHash "WITHDRAW_REQUEST", withdrawalMessage sender token amount destination⟩,
        rfl, rfl, hlt, hdestination, ?_⟩
      exact decodeWithdrawal_message hlt
  | requestRiskTick =>
      change ch.contract.vault.requestRiskTick _ = .ok vault at hvault
      simp only [Vault.requestRiskTick, bind_eq_ok] at hvault
      obtain ⟨price, hprice, hsend⟩ := hvault
      obtain rfl := send_ok hsend
      refine ⟨⟨toHash "RISK_TICK", Bytes.pack [uintWord price.1.toNat, uintWord price.2.toNat]⟩,
        rfl, rfl, price, currentXrpUsdPrice_ok hprice, ?_⟩
      dsimp only
      exact decodeRisk_message price

/-- Only such calls send instructions. -/
theorem step_sends {move : ChainMove} (h : ch.step keccak cfg move = .ok ch') :
    (move.isTransact = false ∧ ch'.contract.vault.sent = ch.contract.vault.sent) ∨
      (move.isTransact = true ∧ ∃ i, ch'.contract.vault.sent = ch.contract.vault.sent ++ [i] ∧
        move.Sends keccak cfg ch i) := by
  cases move with
  | govern env sender call =>
      obtain ⟨contract, hcontract, rfl⟩ := govern_ok h
      exact Or.inl ⟨rfl, by rw [govern_vault hcontract]⟩
  | transact env sender call => exact Or.inr ⟨rfl, transacted_sends h⟩
  | execute env sender signer settlement =>
      obtain ⟨vault, hvault, rfl⟩ := executed_ok h
      obtain ⟨_, _, _, _, _, rfl⟩ := executeSettlement_ok hvault
      exact Or.inl ⟨rfl, rfl⟩
  | receive token amount =>
      rw [← Except.ok.inj h]
      exact Or.inl ⟨rfl, rfl⟩

/-- **What the vault sends, the extension reads.**  In every run of the contract, the instructions
sent are those of the calls it accepted, one each and in that order; from each the extension's own
decoder reads the caller and the arguments, and the deposit's id or the feed's price. -/
theorem instructions_read_back (keccak : Keccak) (cfg : Config) (admin operator : Address)
    (moves : List ChainMove) :
    List.Forall₂ (fun i (c : Chain × ChainMove) => c.2.Sends keccak cfg c.1 i)
      (chainAfter keccak cfg admin operator moves).contract.vault.sent
      ((Machine.commits (Chain.step keccak cfg)
        { contract := Contract.deployed admin operator } moves).filter fun c => c.2.isTransact) := by
  refine Machine.history (fun past (ch : Chain) =>
    List.Forall₂ (fun i (c : Chain × ChainMove) => c.2.Sends keccak cfg c.1 i)
      ch.contract.vault.sent (past.filter fun c => c.2.isTransact)) ?_ .nil moves
  intro past ch move ch' ih hstep
  rw [List.filter_append]
  rcases step_sends hstep with ⟨hquiet, hsent⟩ | ⟨hcall, i, hsent, hsends⟩
  · rw [hsent, List.filter_singleton, hquiet, cond_false, List.append_nil]
    exact ih
  · rw [hsent, List.filter_singleton, hcall, cond_true]
    exact List.rel_append ih (.cons hsends .nil)

end Runs

end QuietLine
