/-
What governs the contract, and how far it reaches.

The extension is named once, by an admin, and until it is the contract takes nothing,
sends nothing and pays nothing.  Whoever submits a settlement, its signer is a machine
that the registry then had in production for that extension.  Pausing reaches borrowing
and nothing else: everything else comes out the same in a run whether or not it is paused
on the way.  Naming the active signer reaches nothing at all.
-/
import QuietLine.Proofs.Custody

namespace QuietLine

open Outcome

section Calls

variable {keccak : Keccak} {cfg : Config} {ch ch' : Chain} {c c' : Contract}

theorem onlyRole_ok {role : Role} {sender : Address} {u : Unit}
    (h : c.onlyRole role sender = .ok u) : c.hasRole role sender = true := by
  unfold Contract.onlyRole at h
  simpa using rejectIf_eq_ok.mp h

/-- Naming the extension. -/
theorem setExtensionID_ok {env : Surroundings} {sender : Address} {id : Nat}
    (h : c.setExtensionID cfg env sender id = .ok c') :
    c.hasRole .admin sender = true ∧ c.extensionID = 0 ∧ firstPublicExtensionID ≤ id ∧
      env.instructionsSender id = cfg.vault ∧ c' = { c with extensionID := id } := by
  unfold Contract.setExtensionID at h
  simp only [bind_eq_ok, rejectIf_eq_ok, not_or, not_not, Nat.not_lt] at h
  obtain ⟨_, hrole, _, ⟨hunset, hpublic, hsender⟩, hc⟩ := h
  cases hc
  exact ⟨onlyRole_ok hrole, hunset, hpublic, hsender, rfl⟩

/-- No other call governs the extension's id. -/
theorem govern_extensionID {env : Surroundings} {sender : Address} {call : Governing}
    (h : call.apply cfg env sender c = .ok c') :
    (∃ id, call = .setExtensionID id) ∨ c'.extensionID = c.extensionID := by
  cases call with
  | setExtensionID id => exact Or.inl ⟨id, rfl⟩
  | setTeeSigner signer =>
      obtain ⟨_, _, hc⟩ := bind_eq_ok.mp h
      obtain ⟨_, _, hc⟩ := bind_eq_ok.mp hc
      obtain ⟨_, _, hc⟩ := bind_eq_ok.mp hc
      cases hc
      exact Or.inr rfl
  | pause | unpause =>
      obtain ⟨_, _, hc⟩ := bind_eq_ok.mp h
      obtain ⟨_, _, hc⟩ := bind_eq_ok.mp hc
      cases hc
      exact Or.inr rfl
  | grantRole role account | revokeRole role account | renounceRole role account =>
      obtain ⟨_, _, hc⟩ := bind_eq_ok.mp h
      cases hc
      exact Or.inr rfl

/-- A machine that is let sign is in production for the extension. -/
theorem isAuthorizedTeeSigner_ok {env : Surroundings} {signer : Address}
    (h : c.isAuthorizedTeeSigner env signer = true) :
    c.extensionID ≠ 0 ∧ signer ≠ Address.zero ∧
      env.signerExtensionID signer = some c.extensionID ∧
      env.machineStatus signer = some teeStatusProduction := by
  unfold Contract.isAuthorizedTeeSigner at h
  by_cases hzero : signer = Address.zero ∨ c.extensionID = 0
  · rw [if_pos hzero] at h
    cases h
  · rw [if_neg hzero] at h
    obtain ⟨hsigner, hid⟩ := not_or.mp hzero
    cases hext : env.signerExtensionID signer with
    | none => rw [hext] at h; cases h
    | some signerExtensionID =>
        rw [hext] at h
        dsimp only at h
        by_cases hsame : signerExtensionID ≠ c.extensionID
        · rw [if_pos hsame] at h
          cases h
        · rw [if_neg hsame] at h
          cases hstatus : env.machineStatus signer with
          | none => rw [hstatus] at h; cases h
          | some status =>
              rw [hstatus] at h
              refine ⟨hid, hsigner, by rw [not_not.mp hsame], ?_⟩
              rw [of_decide_eq_true h]

theorem send_configured {tx : Tx} {command : String} {message : List UInt8} {v v' : Vault}
    (h : v.send tx command message = .ok v') : tx.configured = true := by
  unfold Vault.send at h
  obtain ⟨_, hconfigured, _⟩ := bind_eq_ok.mp h
  simpa using rejectIf_eq_ok.mp hconfigured

/-- Every call ends with an instruction, which needs the extension's id. -/
theorem apply_configured {tx : Tx} {call : VaultCall} {v v' : Vault}
    (h : call.apply keccak cfg tx v = .ok v') : tx.configured = true := by
  cases call with
  | deposit token amount =>
      change v.deposit keccak cfg tx token amount = .ok v' at h
      unfold Vault.deposit at h
      simp only [bind_eq_ok] at h
      obtain ⟨_, _, _, _, _, _, hsend⟩ := h
      exact send_configured hsend
  | fundBackstop amount =>
      change v.fundBackstop keccak cfg tx amount = .ok v' at h
      unfold Vault.fundBackstop at h
      simp only [bind_eq_ok] at h
      obtain ⟨_, _, _, _, _, _, hsend⟩ := h
      exact send_configured hsend
  | requestBorrow ciphertext =>
      change v.requestBorrow tx ciphertext = .ok v' at h
      unfold Vault.requestBorrow at h
      simp only [bind_eq_ok] at h
      obtain ⟨_, _, _, _, _, _, hsend⟩ := h
      exact send_configured hsend
  | requestWithdrawal token amount destination =>
      change v.requestWithdrawal cfg tx token amount destination = .ok v' at h
      unfold Vault.requestWithdrawal at h
      simp only [bind_eq_ok] at h
      obtain ⟨_, _, _, _, _, _, hsend⟩ := h
      exact send_configured hsend
  | requestRiskTick =>
      change v.requestRiskTick tx = .ok v' at h
      unfold Vault.requestRiskTick at h
      simp only [bind_eq_ok] at h
      obtain ⟨_, _, hsend⟩ := h
      exact send_configured hsend

end Calls

/-! ### One extension -/

/-- The extension has been named: by whom, and for what. -/
def NamedIn (cfg : Config) (past : List (Chain × ChainMove)) (id : Nat) : Prop :=
  ∃ c ∈ past, ∃ env sender, c.2 = .govern env sender (.setExtensionID id) ∧
    c.1.contract.extensionID = 0 ∧ c.1.contract.hasRole .admin sender = true ∧
    env.instructionsSender id = cfg.vault

/-- A settlement was submitted under the signature of a production machine of the extension. -/
def SignedIn (past : List (Chain × ChainMove)) (id : Nat) (settlement : Settlement) : Prop :=
  ∃ c ∈ past, ∃ env sender signer, c.2 = .execute env sender signer settlement ∧
    signer ≠ Address.zero ∧ env.signerExtensionID signer = some id ∧
    env.machineStatus signer = some teeStatusProduction

/-- What the moves so far and the contract say of each other. -/
structure Configured (cfg : Config) (past : List (Chain × ChainMove)) (c : Contract) : Prop where
  /-- Before the extension is named, nothing happens. -/
  idle : c.extensionID = 0 → c.vault.fundings = [] ∧ c.vault.sent = [] ∧ c.vault.executed = []
  named : c.extensionID ≠ 0 →
    firstPublicExtensionID ≤ c.extensionID ∧ NamedIn cfg past c.extensionID
  signed : ∀ settlement ∈ c.vault.executed, SignedIn past c.extensionID settlement

section Extension

variable {keccak : Keccak} {cfg : Config} {ch ch' : Chain} {past : List (Chain × ChainMove)}
  {move : ChainMove}

theorem NamedIn.append {id : Nat} (h : NamedIn cfg past id) (more : List (Chain × ChainMove)) :
    NamedIn cfg (past ++ more) id := by
  obtain ⟨c, hc, hrest⟩ := h
  exact ⟨c, List.mem_append_left _ hc, hrest⟩

theorem SignedIn.append {id : Nat} {settlement : Settlement} (h : SignedIn past id settlement)
    (more : List (Chain × ChainMove)) : SignedIn (past ++ more) id settlement := by
  obtain ⟨c, hc, hrest⟩ := h
  exact ⟨c, List.mem_append_left _ hc, hrest⟩

/-- Once named, the extension is not named again. -/
theorem step_extensionID (h : ch.step keccak cfg move = .ok ch')
    (hnamed : ch.contract.extensionID ≠ 0) :
    ch'.contract.extensionID = ch.contract.extensionID := by
  cases move with
  | govern env sender call =>
      obtain ⟨contract, hcontract, rfl⟩ := govern_ok h
      rcases govern_extensionID hcontract with ⟨id, rfl⟩ | hsame
      · exact absurd (setExtensionID_ok hcontract).2.1 hnamed
      · exact hsame
  | transact env sender call =>
      obtain ⟨vault, _, rfl⟩ := transacted_ok h
      rfl
  | execute env sender signer settlement =>
      obtain ⟨vault, _, rfl⟩ := executed_ok h
      rfl
  | receive token amount =>
      rw [← Except.ok.inj h]

theorem run_extensionID (ch : Chain) (hnamed : ch.contract.extensionID ≠ 0)
    (moves : List ChainMove) :
    (Machine.run (Chain.step keccak cfg) ch moves).contract.extensionID =
      ch.contract.extensionID := by
  induction moves generalizing ch with
  | nil => rfl
  | cons move rest ih =>
      cases h : ch.step keccak cfg move with
      | error e =>
          rw [Machine.run_cons, Machine.next_error h]
          exact ih ch hnamed
      | ok ch' =>
          have hsame := step_extensionID h hnamed
          rw [Machine.run_cons, Machine.next_ok h, ih ch' (by rw [hsame]; exact hnamed), hsame]

theorem Configured.step (h : Configured cfg past ch.contract)
    (hstep : ch.step keccak cfg move = .ok ch') :
    Configured cfg (past ++ [(ch, move)]) ch'.contract := by
  have hkeep : ch'.contract.extensionID = ch.contract.extensionID →
      ch'.contract.vault = ch.contract.vault →
      Configured cfg (past ++ [(ch, move)]) ch'.contract := by
    intro hid hvault
    refine ⟨?_, ?_, ?_⟩
    · rw [hid, hvault]
      exact h.idle
    · rw [hid]
      exact fun hne => ⟨(h.named hne).1, (h.named hne).2.append _⟩
    · rw [hid, hvault]
      exact fun settlement hmem => (h.signed settlement hmem).append _
  cases move with
  | govern env sender call =>
      obtain ⟨contract, hcontract, rfl⟩ := govern_ok hstep
      have hvault := govern_vault hcontract
      rcases govern_extensionID hcontract with ⟨id, rfl⟩ | hsame
      · obtain ⟨hrole, hunset, hpublic, hsender, rfl⟩ := setExtensionID_ok hcontract
        have hnone := (h.idle hunset).2.2
        refine ⟨?_, fun _ => ⟨hpublic, ?_⟩, ?_⟩
        · intro hzero
          exact h.idle hunset
        · exact ⟨(ch, _), List.mem_append_right _ List.mem_cons_self, env, sender, rfl, hunset,
            hrole, hsender⟩
        · intro settlement hmem
          dsimp only at hmem
          rw [hnone] at hmem
          cases hmem
      · exact hkeep hsame hvault
  | receive token amount =>
      have hsame : ch'.contract = ch.contract := by rw [← Except.ok.inj hstep]
      exact hkeep (by rw [hsame]) (by rw [hsame])
  | transact env sender call =>
      obtain ⟨vault, hvault, rfl⟩ := transacted_ok hstep
      have hnamed : ch.contract.extensionID ≠ 0 := by
        have hconfigured := apply_configured hvault
        unfold Chain.incoming at hconfigured
        simp only [Bool.and_eq_true, decide_eq_true_eq] at hconfigured
        exact hconfigured.1
      refine ⟨fun hzero => absurd hzero hnamed,
        fun hne => ⟨(h.named hne).1, (h.named hne).2.append _⟩, ?_⟩
      intro settlement hmem
      dsimp only at hmem
      rw [(apply_frame hvault).2.2.1] at hmem
      exact (h.signed settlement hmem).append _
  | execute env sender signer settlement =>
      obtain ⟨vault, hvault, rfl⟩ := executed_ok hstep
      obtain ⟨hauthorised, _, _, _, _, hv⟩ := executeSettlement_ok hvault
      obtain ⟨hnamed, hsigner, hextension, hstatus⟩ := isAuthorizedTeeSigner_ok hauthorised
      refine ⟨fun hzero => absurd hzero hnamed,
        fun hne => ⟨(h.named hne).1, (h.named hne).2.append _⟩, ?_⟩
      intro s hmem
      rw [hv] at hmem
      rcases List.mem_append.mp hmem with hmem | hmem
      · exact (h.signed s hmem).append _
      · obtain rfl := List.mem_singleton.mp hmem
        exact ⟨(ch, _), List.mem_append_right _ List.mem_cons_self, env, sender, signer, rfl,
          hsigner, hextension, hstatus⟩

/-- **One extension, named once.**  In every run of the contract: until the extension is named it
takes no tokens, sends no instruction and executes nothing; it is named by an admin, as a public
extension whose instructions the vault sends, and no longer run names another; and every settlement
executed was signed by a machine that the registry then had in production for it. -/
theorem extension_named_once (keccak : Keccak) (cfg : Config) (admin operator : Address)
    (moves more : List ChainMove) :
    Configured cfg
        (Machine.commits (Chain.step keccak cfg) { contract := Contract.deployed admin operator }
          moves)
        (chainAfter keccak cfg admin operator moves).contract ∧
      ((chainAfter keccak cfg admin operator moves).contract.extensionID ≠ 0 →
        (chainAfter keccak cfg admin operator (moves ++ more)).contract.extensionID =
          (chainAfter keccak cfg admin operator moves).contract.extensionID) := by
  constructor
  · refine Machine.history (fun past (ch : Chain) => Configured cfg past ch.contract)
      (fun _ _ _ _ h hstep => h.step hstep) ⟨fun _ => ⟨rfl, rfl, rfl⟩, ?_, ?_⟩ moves
    · exact fun hne => absurd rfl hne
    · exact fun settlement hmem => nomatch hmem
  · intro hnamed
    unfold chainAfter at hnamed ⊢
    rw [Machine.run_append]
    exact run_extensionID _ hnamed more

end Extension

/-! ### Pausing -/

/-- The move asks for a loan, or pays one out. -/
def ChainMove.borrows : ChainMove → Bool
  | .transact _ _ (.requestBorrow _) => true
  | .execute _ _ _ settlement => settlement.settlementType = .borrowPayout
  | _ => false

/-- The move pauses the contract or lets it go on. -/
def ChainMove.pauses : ChainMove → Bool
  | .govern _ _ .pause => true
  | .govern _ _ .unpause => true
  | _ => false

/-- The chain with the contract paused or not. -/
def Chain.withPaused (paused : Bool) (ch : Chain) : Chain :=
  { ch with contract := { ch.contract with paused } }

section Pausing

variable {keccak : Keccak} {cfg : Config} {ch ch' : Chain} {move : ChainMove} {b : Bool}

@[simp] theorem withPaused_withPaused (b b' : Bool) (ch : Chain) :
    (ch.withPaused b').withPaused b = ch.withPaused b := rfl

/-- What a call that asks for no loan does, it does paused or not. -/
theorem apply_withPaused {env : Surroundings} {sender : Address} {call : VaultCall} {v : Vault}
    (hborrows : ∀ ciphertext, call ≠ .requestBorrow ciphertext) :
    call.apply keccak cfg ((ch.withPaused b).incoming cfg env sender (call.brings cfg)) v =
      call.apply keccak cfg (ch.incoming cfg env sender (call.brings cfg)) v := by
  cases call with
  | requestBorrow ciphertext => exact absurd rfl (hborrows ciphertext)
  | _ => rfl

/-- So does a settlement that pays out no loan. -/
theorem executeSettlement_withPaused {env : Surroundings} {sender signer : Address}
    {settlement : Settlement} {v : Vault} {authorized : Bool}
    (hborrows : settlement.settlementType ≠ .borrowPayout) :
    v.executeSettlement cfg ((ch.withPaused b).outgoing cfg env sender signer) authorized
        settlement =
      v.executeSettlement cfg (ch.outgoing cfg env sender signer) authorized settlement := by
  unfold Vault.executeSettlement Settlement.checkBorrow
  simp only [if_neg hborrows]
  rfl

theorem step_withPaused (hborrows : move.borrows = false) (hpauses : move.pauses = false)
    (h : ch.step keccak cfg move = .ok ch') :
    (ch.withPaused b).step keccak cfg move = .ok (ch'.withPaused b) := by
  cases move with
  | receive token amount =>
      rw [← Except.ok.inj h]
      rfl
  | transact env sender call =>
      obtain ⟨vault, hvault, rfl⟩ := transacted_ok h
      refine bind_eq_ok.mpr ⟨vault, ofContract_eq_ok.mpr ?_, rfl⟩
      rw [← hvault]
      refine apply_withPaused fun ciphertext hcall => ?_
      rw [hcall] at hborrows
      cases hborrows
  | execute env sender signer settlement =>
      obtain ⟨vault, hvault, rfl⟩ := executed_ok h
      refine bind_eq_ok.mpr ⟨vault, ofContract_eq_ok.mpr ?_, rfl⟩
      rw [← hvault]
      exact executeSettlement_withPaused (of_decide_eq_false hborrows)
  | govern env sender call =>
      obtain ⟨contract, hcontract, rfl⟩ := govern_ok h
      refine bind_eq_ok.mpr ⟨{ contract with paused := b }, ?_, rfl⟩
      cases call with
      | pause | unpause => cases hpauses
      | setExtensionID id =>
          obtain ⟨u, hrole, hcontract⟩ := bind_eq_ok.mp hcontract
          obtain ⟨u', hchecked, hcontract⟩ := bind_eq_ok.mp hcontract
          cases hcontract
          exact bind_eq_ok.mpr ⟨u, hrole, bind_eq_ok.mpr ⟨u', hchecked, rfl⟩⟩
      | setTeeSigner signer =>
          obtain ⟨u, hrole, hcontract⟩ := bind_eq_ok.mp hcontract
          obtain ⟨u', hzero, hcontract⟩ := bind_eq_ok.mp hcontract
          obtain ⟨u'', hchecked, hcontract⟩ := bind_eq_ok.mp hcontract
          cases hcontract
          exact bind_eq_ok.mpr ⟨u, hrole, bind_eq_ok.mpr ⟨u', hzero,
            bind_eq_ok.mpr ⟨u'', hchecked, rfl⟩⟩⟩
      | grantRole role account | revokeRole role account | renounceRole role account =>
          obtain ⟨u, hchecked, hcontract⟩ := bind_eq_ok.mp hcontract
          cases hcontract
          exact bind_eq_ok.mpr ⟨u, hchecked, rfl⟩

/-- A pause changes nothing else. -/
theorem step_pauses (hpauses : move.pauses = true) (h : ch.step keccak cfg move = .ok ch') :
    ch'.withPaused b = ch.withPaused b := by
  cases move with
  | govern env sender call =>
      obtain ⟨contract, hcontract, rfl⟩ := govern_ok h
      cases call with
      | pause | unpause =>
          obtain ⟨_, _, hcontract⟩ := bind_eq_ok.mp hcontract
          obtain ⟨_, _, hcontract⟩ := bind_eq_ok.mp hcontract
          cases hcontract
          rfl
      | _ => cases hpauses
  | _ => cases hpauses

/-- A paused contract neither asks for a loan nor pays one out. -/
theorem step_borrows (hborrows : move.borrows = true) (h : ch.step keccak cfg move = .ok ch') :
    ch.contract.paused = false := by
  cases move with
  | govern env sender call => cases hborrows
  | receive token amount => cases hborrows
  | transact env sender call =>
      obtain ⟨vault, hvault, _⟩ := transacted_ok h
      cases call with
      | requestBorrow ciphertext =>
          change ch.contract.vault.requestBorrow _ ciphertext = .ok vault at hvault
          unfold Vault.requestBorrow at hvault
          obtain ⟨_, hpaused, _⟩ := bind_eq_ok.mp hvault
          exact Bool.eq_false_iff.mpr (rejectIf_eq_ok.mp hpaused)
      | _ => cases hborrows
  | execute env sender signer settlement =>
      obtain ⟨vault, hvault, _⟩ := executed_ok h
      have htype : settlement.settlementType = .borrowPayout := of_decide_eq_true hborrows
      unfold Vault.executeSettlement Settlement.checkBorrow at hvault
      simp only [bind_eq_ok, if_pos htype] at hvault
      obtain ⟨_, _, _, _, _, _, _, _, _, _, _, ⟨_, hpaused, _⟩, _⟩ := hvault
      exact Bool.eq_false_iff.mpr (rejectIf_eq_ok.mp hpaused)

end Pausing

/-! ### The active signer -/

/-- The move names the active signer. -/
def ChainMove.namesSigner : ChainMove → Bool
  | .govern _ _ (.setTeeSigner _) => true
  | _ => false

def Chain.withSigner (activeTeeSigner : Address) (ch : Chain) : Chain :=
  { ch with contract := { ch.contract with activeTeeSigner } }

section Signer

variable {keccak : Keccak} {cfg : Config} {ch ch' : Chain} {move : ChainMove} {a : Address}

@[simp] theorem withSigner_withSigner (a a' : Address) (ch : Chain) :
    (ch.withSigner a').withSigner a = ch.withSigner a := rfl

/-- Nothing reads the active signer. -/
theorem step_withSigner (hnames : move.namesSigner = false)
    (h : ch.step keccak cfg move = .ok ch') :
    (ch.withSigner a).step keccak cfg move = .ok (ch'.withSigner a) := by
  cases move with
  | receive token amount =>
      rw [← Except.ok.inj h]
      rfl
  | transact env sender call =>
      obtain ⟨vault, hvault, rfl⟩ := transacted_ok h
      exact bind_eq_ok.mpr ⟨vault, ofContract_eq_ok.mpr hvault, rfl⟩
  | execute env sender signer settlement =>
      obtain ⟨vault, hvault, rfl⟩ := executed_ok h
      exact bind_eq_ok.mpr ⟨vault, ofContract_eq_ok.mpr hvault, rfl⟩
  | govern env sender call =>
      obtain ⟨contract, hcontract, rfl⟩ := govern_ok h
      refine bind_eq_ok.mpr ⟨{ contract with activeTeeSigner := a }, ?_, rfl⟩
      cases call with
      | setTeeSigner signer => cases hnames
      | setExtensionID id | pause | unpause =>
          obtain ⟨u, hrole, hcontract⟩ := bind_eq_ok.mp hcontract
          obtain ⟨u', hchecked, hcontract⟩ := bind_eq_ok.mp hcontract
          cases hcontract
          exact bind_eq_ok.mpr ⟨u, hrole, bind_eq_ok.mpr ⟨u', hchecked, rfl⟩⟩
      | grantRole role account | revokeRole role account | renounceRole role account =>
          obtain ⟨u, hchecked, hcontract⟩ := bind_eq_ok.mp hcontract
          cases hcontract
          exact bind_eq_ok.mpr ⟨u, hchecked, rfl⟩

theorem step_namesSigner (hnames : move.namesSigner = true)
    (h : ch.step keccak cfg move = .ok ch') : ch'.withSigner a = ch.withSigner a := by
  cases move with
  | govern env sender call =>
      obtain ⟨contract, hcontract, rfl⟩ := govern_ok h
      cases call with
      | setTeeSigner signer =>
          obtain ⟨_, _, hcontract⟩ := bind_eq_ok.mp hcontract
          obtain ⟨_, _, hcontract⟩ := bind_eq_ok.mp hcontract
          obtain ⟨_, _, hcontract⟩ := bind_eq_ok.mp hcontract
          cases hcontract
          rfl
      | _ => cases hnames
  | _ => cases hnames

end Signer

/-- **Pausing stops borrowing and nothing else.**  No run of the contract accepts a request for a
loan or the payout of one while it is paused; and without these, a run comes to the same, but for
the flag, as the run with every pause and unpause left out: deposits, withdrawals, price ticks and
every other settlement go on.  Naming the active signer stops nothing and allows nothing: any run
comes to the same, but for the name, without it. -/
theorem pause_stops_borrowing (keccak : Keccak) (cfg : Config) (admin operator : Address)
    (moves : List ChainMove) :
    (∀ c ∈ Machine.commits (Chain.step keccak cfg)
        { contract := Contract.deployed admin operator } moves,
      c.2.borrows = true → c.1.contract.paused = false) ∧
    (chainAfter keccak cfg admin operator
        (moves.filter fun move => !move.borrows)).withPaused false =
      (chainAfter keccak cfg admin operator
        (moves.filter fun move => !move.pauses && !move.borrows)).withPaused false ∧
    (chainAfter keccak cfg admin operator moves).withSigner Address.zero =
      (chainAfter keccak cfg admin operator
        (moves.filter fun move => !move.namesSigner)).withSigner Address.zero := by
  refine ⟨?_, ?_, ?_⟩
  · intro c hc hborrows
    obtain ⟨_, _, ch', _, _, hstep⟩ := Machine.exists_prefix_of_mem_commits hc
    exact step_borrows hborrows hstep
  · rw [← List.filter_filter]
    refine Machine.run_filter ?_ ?_ rfl
    · intro ch move ch' hdrop hstep
      exact step_pauses (by simpa using hdrop) hstep
    · intro ch₁ ch₂ move ch' hmem hkeep hsame hstep
      have hborrows := (List.mem_filter.mp hmem).2
      have hother : ch₁.withPaused ch₂.contract.paused = ch₂ := by
        have heq := congrArg (Chain.withPaused ch₂.contract.paused) hsame
        rw [withPaused_withPaused, withPaused_withPaused] at heq
        exact heq
      refine ⟨ch'.withPaused ch₂.contract.paused, ?_, rfl⟩
      rw [← hother]
      exact step_withPaused (by simpa using hborrows) (by simpa using hkeep) hstep
  · refine Machine.run_filter ?_ ?_ rfl
    · intro ch move ch' hdrop hstep
      exact step_namesSigner (by simpa using hdrop) hstep
    · intro ch₁ ch₂ move ch' hmem hkeep hsame hstep
      have hother : ch₁.withSigner ch₂.contract.activeTeeSigner = ch₂ := by
        have heq := congrArg (Chain.withSigner ch₂.contract.activeTeeSigner) hsame
        rw [withSigner_withSigner, withSigner_withSigner] at heq
        exact heq
      refine ⟨ch'.withSigner ch₂.contract.activeTeeSigner, ?_, rfl⟩
      rw [← hother]
      exact step_withSigner (by simpa using hkeep) hstep

end QuietLine
