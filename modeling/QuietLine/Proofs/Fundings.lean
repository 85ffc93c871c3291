/-
What the vault has received, and what it says about it.

Deposits and backstop fundings draw their ids from one nonce, so no two of them
have one preimage; the record filed under a deposit id, and every instruction that
names one, are those of a funding the vault has taken.
-/
import QuietLine.System.Model

namespace QuietLine

open Outcome Abi

/-! ### Ids -/

section Ids

variable {keccak : Keccak} {cfg : Config}

/-- A funding as the vault takes it. -/
structure Funding.Valid (cfg : Config) (f : Funding) : Prop where
  supported : cfg.supportedAsset f.token = true
  positive : 0 < f.amount
  fits : f.amount < 2 ^ 64
  nonce_fits : f.nonce < 2 ^ 64

/-- The words of a preimage give back the nonce. -/
theorem nonce_of_preimage {f g : Funding} (hf : f.nonce < 2 ^ 64) (hg : g.nonce < 2 ^ 64)
    (h : f.preimage cfg = g.preimage cfg) : f.nonce = g.nonce := by
  unfold Funding.preimage at h
  have hlen := Bytes.length_eq_of_pack_eq (by decide) h
  have hwords := Bytes.pack_inj hlen h
  have hnonce : uintWord f.nonce = uintWord g.nonce := by
    have hget := congrArg (fun ws => ws[5]?) hwords
    simpa using hget
  exact uintWord_inj (by omega) (by omega) hnonce

/-- The preimages hashed in a run collide nowhere. -/
def CollisionFree (keccak : Keccak) (preimages : List (List UInt8)) : Prop :=
  ∀ x ∈ preimages, ∀ y ∈ preimages, keccak x = keccak y → x = y

/-- The funding a vault recorded under an id. -/
structure RecordedAs (keccak : Keccak) (cfg : Config) (f : Funding) (depositID : Hash)
    (record : DepositRecord) : Prop where
  isDeposit : f.isBackstop = false
  id : f.depositID keccak cfg = depositID
  account : record.account = f.account
  token : record.token = f.token
  amount : record.amount = f.amount

end Ids

/-! ### The books of the vault -/

/-- What the vault keeps over every transaction. -/
structure Recorded (keccak : Keccak) (cfg : Config) (v : Vault) : Prop where
  valid : ∀ f ∈ v.fundings, f.Valid cfg
  bounded : ∀ f ∈ v.fundings, f.nonce ≤ v.depositNonce
  nonces : (v.fundings.map Funding.nonce).Nodup
  tokens : ∀ f ∈ v.fundings, f.isBackstop = true → f.token = cfg.usdt0
  issued : ∀ f ∈ v.fundings, f.isBackstop = false → ∃ g ∈ v.fundings,
    RecordedAs keccak cfg g (f.depositID keccak cfg) (v.depositById (f.depositID keccak cfg))
  records : ∀ depositID, v.depositById depositID = {} ∨
    ∃ f ∈ v.fundings, RecordedAs keccak cfg f depositID (v.depositById depositID)
  deposits : ∀ i ∈ v.sent, i.opCommand = toHash "DEPOSIT" →
    ∃ f ∈ v.fundings, f.isBackstop = false ∧ i.message = depositMessage keccak cfg f
  backstops : ∀ i ∈ v.sent, i.opCommand = toHash "BACKSTOP_DEPOSIT" →
    ∃ f ∈ v.fundings, f.isBackstop = true ∧ i.message = backstopMessage keccak cfg f

section Steps

variable {keccak : Keccak} {cfg : Config} {tx : Tx} {v v' : Vault}

theorem commands_ne : toHash "DEPOSIT" ≠ toHash "BACKSTOP_DEPOSIT" := by decide

theorem recorded_empty : Recorded keccak cfg {} where
  valid := by simp
  bounded := by simp
  nonces := by simp
  tokens := by simp
  issued := by simp
  records := fun _ => Or.inl rfl
  deposits := by simp
  backstops := by simp

/-- A transaction that only sends another instruction. -/
theorem Recorded.send {command : String} {message : List UInt8} (h : Recorded keccak cfg v)
    (hd : toHash command ≠ toHash "DEPOSIT") (hb : toHash command ≠ toHash "BACKSTOP_DEPOSIT")
    (hs : v.send tx command message = .ok v') : Recorded keccak cfg v' := by
  obtain rfl := send_ok hs
  refine { h with deposits := ?_, backstops := ?_ }
  · intro i hi hc
    rcases List.mem_append.mp hi with hi | hi
    · exact h.deposits i hi hc
    · rw [List.mem_singleton.mp hi] at hc
      exact absurd hc hd
  · intro i hi hc
    rcases List.mem_append.mp hi with hi | hi
    · exact h.backstops i hi hc
    · rw [List.mem_singleton.mp hi] at hc
      exact absurd hc hb

/-- The next funding has a nonce of its own. -/
theorem nodup_nonces {f : Funding} (h : Recorded keccak cfg v) (hf : f.nonce = v.depositNonce + 1) :
    ((v.fundings ++ [f]).map Funding.nonce).Nodup := by
  rw [List.map_append, List.map_singleton, List.nodup_append]
  refine ⟨h.nonces, List.nodup_singleton _, ?_⟩
  intro n hn m hm
  obtain ⟨g, hg, rfl⟩ := List.mem_map.mp hn
  rw [List.mem_singleton.mp hm, hf]
  exact Nat.ne_of_lt (Nat.lt_succ_of_le (h.bounded g hg))

theorem vaultDeposit_ok {token : Address} {amount : Nat}
    (h : v.deposit keccak cfg tx token amount = .ok v') :
    ∃ f : Funding, f.Valid cfg ∧ f.isBackstop = false ∧ f.account = tx.sender ∧
      f.token = token ∧ f.amount = amount ∧ f.nonce = v.depositNonce + 1 ∧
      v' = { v with
        depositNonce := v.depositNonce + 1
        fundings := v.fundings ++ [f]
        depositById := fun id => if id = f.depositID keccak cfg then
          { account := tx.sender, token, amount, submittedAt := UInt64.ofNat tx.timestamp }
          else v.depositById id
        sent := v.sent ++
          [{ opCommand := toHash "DEPOSIT", message := depositMessage keccak cfg f }] } := by
  unfold Vault.deposit at h
  simp only [bind_eq_ok, rejectIf_eq_ok] at h
  obtain ⟨_, hsupported, _, hamount, ⟨f, v₁⟩, hreceive, hsend⟩ := h
  obtain ⟨_, hnonce, rfl, rfl⟩ := receiveTokens_ok hreceive
  obtain ⟨hzero, hbig⟩ := not_or.mp hamount
  obtain rfl := send_ok hsend
  refine ⟨_, ⟨by simpa using hsupported, ?_, ?_, hnonce⟩, rfl, rfl, rfl, rfl, rfl, rfl⟩
  · exact Nat.pos_of_ne_zero hzero
  · exact Nat.lt_of_not_ge hbig

theorem fundBackstop_ok {amount : Nat} (h : v.fundBackstop keccak cfg tx amount = .ok v') :
    ∃ f : Funding, f.Valid cfg ∧ f.isBackstop = true ∧ f.token = cfg.usdt0 ∧
      f.amount = amount ∧ f.nonce = v.depositNonce + 1 ∧
      v' = { v with
        depositNonce := v.depositNonce + 1
        fundings := v.fundings ++ [f]
        sent := v.sent ++ [{ opCommand := toHash "BACKSTOP_DEPOSIT"
                             message := backstopMessage keccak cfg f }] } := by
  unfold Vault.fundBackstop at h
  simp only [bind_eq_ok, rejectIf_eq_ok] at h
  obtain ⟨_, _, _, hamount, ⟨f, v₁⟩, hreceive, hsend⟩ := h
  obtain ⟨_, hnonce, rfl, rfl⟩ := receiveTokens_ok hreceive
  obtain ⟨hzero, hbig⟩ := not_or.mp hamount
  obtain rfl := send_ok hsend
  refine ⟨_, ⟨?_, ?_, ?_, hnonce⟩, rfl, rfl, rfl, rfl, rfl⟩
  · simp [Config.supportedAsset]
  · exact Nat.pos_of_ne_zero hzero
  · exact Nat.lt_of_not_ge hbig

/-- The parts of the books that a funding adds to in one way, whichever kind it is. -/
theorem Recorded.bounded_append {f : Funding} (h : Recorded keccak cfg v)
    (hf : f.nonce = v.depositNonce + 1) :
    ∀ g ∈ v.fundings ++ [f], g.nonce ≤ v.depositNonce + 1 := by
  intro g hg
  rcases List.mem_append.mp hg with hg | hg
  · exact Nat.le_succ_of_le (h.bounded g hg)
  · rw [List.mem_singleton.mp hg, hf]

theorem Recorded.valid_append {f : Funding} (h : Recorded keccak cfg v) (hf : f.Valid cfg) :
    ∀ g ∈ v.fundings ++ [f], g.Valid cfg := by
  intro g hg
  rcases List.mem_append.mp hg with hg | hg
  · exact h.valid g hg
  · rw [List.mem_singleton.mp hg]; exact hf

theorem Recorded.deposit {token : Address} {amount : Nat} (h : Recorded keccak cfg v)
    (hd : v.deposit keccak cfg tx token amount = .ok v') : Recorded keccak cfg v' := by
  obtain ⟨f, hvalid, hkind, haccount, htoken, hamount, hnonce, rfl⟩ := vaultDeposit_ok hd
  have hmem : f ∈ v.fundings ++ [f] := by simp
  refine ⟨h.valid_append hvalid, h.bounded_append hnonce, nodup_nonces h hnonce, ?_, ?_, ?_, ?_, ?_⟩
  · intro g hg hback
    rcases List.mem_append.mp hg with hg | hg
    · exact h.tokens g hg hback
    · rw [List.mem_singleton.mp hg, hkind] at hback
      cases hback
  · intro g hg hback
    dsimp only
    by_cases hid : g.depositID keccak cfg = f.depositID keccak cfg
    · rw [if_pos hid]
      exact ⟨f, hmem, hkind, hid.symm, haccount.symm, htoken.symm, hamount.symm⟩
    · rw [if_neg hid]
      rcases List.mem_append.mp hg with hg | hg
      · obtain ⟨g', hg', hr⟩ := h.issued g hg hback
        exact ⟨g', List.mem_append_left _ hg', hr⟩
      · rw [List.mem_singleton.mp hg] at hid
        exact absurd rfl hid
  · intro id
    dsimp only
    by_cases hid : id = f.depositID keccak cfg
    · rw [if_pos hid]
      exact Or.inr ⟨f, hmem, hkind, hid.symm, haccount.symm, htoken.symm, hamount.symm⟩
    · rw [if_neg hid]
      rcases h.records id with h0 | ⟨g, hg, hr⟩
      · exact Or.inl h0
      · exact Or.inr ⟨g, List.mem_append_left _ hg, hr⟩
  · intro i hi hc
    rcases List.mem_append.mp hi with hi | hi
    · obtain ⟨g, hg, hmsg⟩ := h.deposits i hi hc
      exact ⟨g, List.mem_append_left _ hg, hmsg⟩
    · rw [List.mem_singleton.mp hi]
      exact ⟨f, hmem, hkind, rfl⟩
  · intro i hi hc
    rcases List.mem_append.mp hi with hi | hi
    · obtain ⟨g, hg, hmsg⟩ := h.backstops i hi hc
      exact ⟨g, List.mem_append_left _ hg, hmsg⟩
    · rw [List.mem_singleton.mp hi] at hc
      exact absurd hc commands_ne

theorem Recorded.fundBackstop {amount : Nat} (h : Recorded keccak cfg v)
    (hd : v.fundBackstop keccak cfg tx amount = .ok v') : Recorded keccak cfg v' := by
  obtain ⟨f, hvalid, hkind, htoken, _, hnonce, rfl⟩ := fundBackstop_ok hd
  have hmem : f ∈ v.fundings ++ [f] := by simp
  refine ⟨h.valid_append hvalid, h.bounded_append hnonce, nodup_nonces h hnonce, ?_, ?_, ?_, ?_, ?_⟩
  · intro g hg hback
    rcases List.mem_append.mp hg with hg | hg
    · exact h.tokens g hg hback
    · rw [List.mem_singleton.mp hg]
      exact htoken
  · intro g hg hback
    rcases List.mem_append.mp hg with hg | hg
    · obtain ⟨g', hg', hr⟩ := h.issued g hg hback
      exact ⟨g', List.mem_append_left _ hg', hr⟩
    · rw [List.mem_singleton.mp hg, hkind] at hback
      cases hback
  · intro id
    rcases h.records id with h0 | ⟨g, hg, hr⟩
    · exact Or.inl h0
    · exact Or.inr ⟨g, List.mem_append_left _ hg, hr⟩
  · intro i hi hc
    rcases List.mem_append.mp hi with hi | hi
    · obtain ⟨g, hg, hmsg⟩ := h.deposits i hi hc
      exact ⟨g, List.mem_append_left _ hg, hmsg⟩
    · rw [List.mem_singleton.mp hi] at hc
      exact absurd hc commands_ne.symm
  · intro i hi hc
    rcases List.mem_append.mp hi with hi | hi
    · obtain ⟨g, hg, hmsg⟩ := h.backstops i hi hc
      exact ⟨g, List.mem_append_left _ hg, hmsg⟩
    · rw [List.mem_singleton.mp hi]
      exact ⟨f, hmem, hkind, rfl⟩

/-- A transaction takes a deposit, funds the backstop, or only sends an instruction that is
neither's. -/
theorem apply_cases {call : VaultCall} (h : call.apply keccak cfg tx v = .ok v') :
    (∃ token amount, v.deposit keccak cfg tx token amount = .ok v') ∨
      (∃ amount, v.fundBackstop keccak cfg tx amount = .ok v') ∨
      ∃ command message, toHash command ≠ toHash "DEPOSIT" ∧
        toHash command ≠ toHash "BACKSTOP_DEPOSIT" ∧ v.send tx command message = .ok v' := by
  cases call with
  | deposit token amount => exact Or.inl ⟨token, amount, h⟩
  | fundBackstop amount => exact Or.inr (Or.inl ⟨amount, h⟩)
  | requestBorrow ciphertext =>
      change v.requestBorrow tx ciphertext = _ at h
      simp only [Vault.requestBorrow, bind_eq_ok, rejectIf_eq_ok] at h
      obtain ⟨_, _, _, _, price, _, hsend⟩ := h
      exact Or.inr (Or.inr ⟨_, _, by decide, by decide, hsend⟩)
  | requestWithdrawal token amount destination =>
      change v.requestWithdrawal cfg tx token amount destination = _ at h
      simp only [Vault.requestWithdrawal, bind_eq_ok, rejectIf_eq_ok] at h
      obtain ⟨_, _, _, _, _, _, hsend⟩ := h
      exact Or.inr (Or.inr ⟨_, _, by decide, by decide, hsend⟩)
  | requestRiskTick =>
      change v.requestRiskTick tx = _ at h
      simp only [Vault.requestRiskTick, bind_eq_ok] at h
      obtain ⟨price, _, hsend⟩ := h
      exact Or.inr (Or.inr ⟨_, _, by decide, by decide, hsend⟩)

/-- **Every transaction keeps the books.** -/
theorem Recorded.apply {call : VaultCall} (h : Recorded keccak cfg v)
    (hv : call.apply keccak cfg tx v = .ok v') : Recorded keccak cfg v' := by
  rcases apply_cases hv with ⟨token, amount, hd⟩ | ⟨amount, hb⟩ | ⟨command, message, hd, hb, hs⟩
  · exact h.deposit hd
  · exact h.fundBackstop hb
  · exact h.send hd hb hs

/-- A transaction leaves the anchor alone and only adds to what was received. -/
theorem apply_frame {call : VaultCall} (hv : call.apply keccak cfg tx v = .ok v') :
    v'.stateSequence = v.stateSequence ∧ v'.stateRoot = v.stateRoot ∧
      v'.executed = v.executed ∧ v.fundings <+: v'.fundings := by
  rcases apply_cases hv with ⟨token, amount, hd⟩ | ⟨amount, hb⟩ | ⟨command, message, _, _, hs⟩
  · obtain ⟨f, _, _, _, _, _, _, rfl⟩ := vaultDeposit_ok hd
    exact ⟨rfl, rfl, rfl, List.prefix_append _ _⟩
  · obtain ⟨f, _, _, _, _, _, rfl⟩ := fundBackstop_ok hb
    exact ⟨rfl, rfl, rfl, List.prefix_append _ _⟩
  · obtain rfl := send_ok hs
    exact ⟨rfl, rfl, rfl, List.prefix_rfl⟩

/-- What was sent stays sent. -/
theorem apply_sent {call : VaultCall} (hv : call.apply keccak cfg tx v = .ok v') :
    v.sent <+: v'.sent := by
  rcases apply_cases hv with ⟨token, amount, hd⟩ | ⟨amount, hb⟩ | ⟨command, message, _, _, hs⟩
  · obtain ⟨f, _, _, _, _, _, _, rfl⟩ := vaultDeposit_ok hd
    exact List.prefix_append _ _
  · obtain ⟨f, _, _, _, _, _, rfl⟩ := fundBackstop_ok hb
    exact List.prefix_append _ _
  · obtain rfl := send_ok hs
    exact List.prefix_append _ _

end Steps

end QuietLine
