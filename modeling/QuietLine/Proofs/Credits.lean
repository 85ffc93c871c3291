/-
Every deposit is credited at most once, and as the vault recorded it.

A deposit reaches the ledger by the instruction the vault sent for it or by a
recovery that reads the vault's record of it; both call the engine under the
deposit's id, and the engine takes an id once.  So every credit has a funding of its
own that is worth as much, and what is credited never exceeds what was received.
-/
import QuietLine.Proofs.Duplicates

namespace QuietLine

open Outcome Abi

/-! ### Credits and fundings -/

/-- The operation credits the funding: its account or the backstop, its asset, its amount, under
its id. -/
def Funding.CreditedBy (keccak : Keccak) (cfg : Config) (f : Funding) (op : Operation) : Prop :=
  match op with
  | .deposit owner asset amount id => f.isBackstop = false ∧ owner = f.account.hex keccak ∧
      assetForToken cfg f.token = .ok asset ∧ amount.toNat = f.amount ∧
      id = (f.depositID keccak cfg).hex
  | .seedBackstop amount id => f.isBackstop = true ∧ amount.toNat = f.amount ∧
      id = (f.depositID keccak cfg).hex
  | _ => False

/-- The operation credits tokens that the vault has received. -/
def OpKind.isCredit : OpKind → Bool
  | .deposit | .backstopDeposit => true
  | _ => false

/-- What an operation credits in an asset. -/
def Operation.credit (name : String) : Operation → Nat
  | .deposit _ asset amount _ => if asset = name then amount.toNat else 0
  | .seedBackstop amount _ => if "USDT0" = name then amount.toNat else 0
  | _ => 0

def Event.credit (name : String) : Event → Nat
  | .operate _ _ op => op.credit name
  | .confirm .. => 0

/-- The token an asset is kept in. -/
def Config.tokenOf (cfg : Config) (name : String) : Address :=
  if name = "FXRP" then cfg.fxrp else cfg.usdt0

/-- What the vault has received in an asset. -/
def Vault.received (v : Vault) (cfg : Config) (name : String) : Nat :=
  (v.fundings.map fun f => if f.token = cfg.tokenOf name then f.amount else 0).sum

section Fundings

variable {keccak : Keccak} {cfg : Config} {f g : Funding} {op : Operation}

theorem Funding.CreditedBy.isCredit (h : f.CreditedBy keccak cfg op) :
    op.kind.isCredit = true ∧ op.kind.recorded = true ∧
      op.operationID = (f.depositID keccak cfg).hex := by
  cases op with
  | deposit => exact ⟨rfl, rfl, h.2.2.2.2⟩
  | seedBackstop => exact ⟨rfl, rfl, h.2.2⟩
  | _ => exact h.elim

/-- A credit is in the asset whose token came in. -/
theorem Funding.CreditedBy.credit_le {v : Vault} (h : f.CreditedBy keccak cfg op)
    (hbooks : Recorded keccak cfg v) (hf : f ∈ v.fundings) (name : String)
    (hne : op.credit name ≠ 0) :
    op.credit name ≤ if f.token = cfg.tokenOf name then f.amount else 0 := by
  cases op with
  | deposit owner asset amount id =>
      obtain ⟨_, _, hasset, hamount, _⟩ := h
      by_cases hname : asset = name
      · obtain rfl := hname
        have htoken : f.token = cfg.tokenOf asset := by
          unfold assetForToken at hasset
          unfold Config.tokenOf
          by_cases hfxrp : f.token = cfg.fxrp
          · rw [if_pos hfxrp] at hasset
            cases hasset
            rw [if_pos rfl]
            exact hfxrp
          · rw [if_neg hfxrp] at hasset
            by_cases husdt0 : f.token = cfg.usdt0
            · rw [if_pos husdt0] at hasset
              cases hasset
              rw [if_neg (by decide)]
              exact husdt0
            · rw [if_neg husdt0] at hasset
              cases hasset
        rw [if_pos htoken]
        simp [Operation.credit, hamount]
      · simp [Operation.credit, hname] at hne
  | seedBackstop amount id =>
      obtain ⟨hback, hamount, _⟩ := h
      by_cases hname : "USDT0" = name
      · obtain rfl := hname
        have htoken : f.token = cfg.tokenOf "USDT0" := hbooks.tokens f hf hback
        rw [if_pos htoken]
        simp [Operation.credit, hamount]
      · simp [Operation.credit, hname] at hne
  | _ => exact h.elim

/-- Under a digest that does not collide on them, fundings have ids of their own. -/
theorem Recorded.funding_of_id {v : Vault} (hbooks : Recorded keccak cfg v)
    (hfree : CollisionFree keccak (v.fundings.map (Funding.preimage cfg))) (hf : f ∈ v.fundings)
    (hg : g ∈ v.fundings) (h : f.depositID keccak cfg = g.depositID keccak cfg) : f = g := by
  have hpre := hfree _ (List.mem_map_of_mem hf) _ (List.mem_map_of_mem hg) h
  have hnonce := nonce_of_preimage (hbooks.valid f hf).nonce_fits (hbooks.valid g hg).nonce_fits hpre
  exact List.inj_on_of_nodup_map hbooks.nonces hf hg hnonce

end Fundings

/-! ### What the two paths read -/

section Messages

variable {keccak : Keccak} {cfg : Config} {f : Funding}

theorem amountUint64_ofNat {n : Nat} (h : n < 2 ^ 64) :
    amountUint64 n = .ok (UInt64.ofNat n) := by
  unfold amountUint64
  rw [rejectIf_of_not (Nat.not_le.mpr h), ok_bind]
  rfl

/-- The instruction of a deposit reads back to its funding. -/
theorem decodeDeposit_message (hvalid : f.Valid cfg) :
    decodeDeposit (depositMessage keccak cfg f) =
      .ok (f.account, f.token, UInt64.ofNat f.amount, f.depositID keccak cfg) := by
  have hfits := hvalid.fits
  have h0 : addressAt 0 (depositMessage keccak cfg f ++ []) = some f.account :=
    addressAt_pack rfl
  have h1 : addressAt 1 (depositMessage keccak cfg f ++ []) = some f.token := addressAt_pack rfl
  have h2 : uintAt 2 (depositMessage keccak cfg f ++ []) = some f.amount :=
    uintAt_pack (by omega) rfl
  have h3 : wordAt 3 (depositMessage keccak cfg f ++ []) = some (f.depositID keccak cfg) :=
    wordAt_pack [] rfl
  rw [List.append_nil] at h0 h1 h2 h3
  unfold decodeDeposit
  simp only [h0, h1, h2, h3, Outcome.orElse, ok_bind, amountUint64_ofNat hfits]
  rfl

theorem decodeBackstopDeposit_message (hvalid : f.Valid cfg) :
    decodeBackstopDeposit (backstopMessage keccak cfg f) =
      .ok (f.account, UInt64.ofNat f.amount, f.depositID keccak cfg) := by
  have hfits := hvalid.fits
  have h0 : addressAt 0 (backstopMessage keccak cfg f ++ []) = some f.account :=
    addressAt_pack rfl
  have h1 : uintAt 1 (backstopMessage keccak cfg f ++ []) = some f.amount :=
    uintAt_pack (by omega) rfl
  have h2 : wordAt 2 (backstopMessage keccak cfg f ++ []) = some (f.depositID keccak cfg) :=
    wordAt_pack [] rfl
  rw [List.append_nil] at h0 h1 h2
  unfold decodeBackstopDeposit
  simp only [h0, h1, h2, Outcome.orElse, ok_bind, amountUint64_ofNat hfits]
  rfl

/-- A record of the vault reads back. -/
theorem unpackDepositRecord_pack {record : DepositRecord} (h : record.amount < 2 ^ 64) :
    unpackDepositRecord (packDepositRecord record) = some record := by
  have hat := record.submittedAt.toNat_lt
  have h0 : addressAt 0 (packDepositRecord record ++ []) = some record.account :=
    addressAt_pack rfl
  have h1 : addressAt 1 (packDepositRecord record ++ []) = some record.token := addressAt_pack rfl
  have h2 : uintAt 2 (packDepositRecord record ++ []) = some record.amount :=
    uintAt_pack (by omega) rfl
  have h3 : uintAt 3 (packDepositRecord record ++ []) = some record.submittedAt.toNat :=
    uintAt_pack (by omega) rfl
  rw [List.append_nil] at h0 h1 h2 h3
  unfold unpackDepositRecord uint64At
  simp only [h0, h1, h2, h3, Option.bind_some, if_pos hat, UInt64.ofNat_toNat]
  rfl

/-- What a recovery has checked: the record exists and says what the payload does. -/
theorem checkDepositRecord_ok {payload : RecoverDepositPayload} {record : DepositRecord} {u : Unit}
    (h : checkDepositRecord payload record = .ok u) :
    record.submittedAt ≠ 0 ∧ record.account = payload.account ∧ record.token = payload.token ∧
      record.amount = payload.amount.toNat := by
  unfold checkDepositRecord at h
  simp only [bind_eq_ok, rejectIf_eq_ok, not_or, not_not] at h
  obtain ⟨_, ⟨_, hsubmitted⟩, hsame⟩ := h
  exact ⟨hsubmitted, hsame⟩

end Messages

/-! ### Instructions as the vault sends them -/

/-- An instruction that reports a funding is one the vault has sent. -/
def Action.Sent (S : Setup) (v : Vault) (action : Action) : Bool :=
  match action.actionType, S.platform.dataFixed action.message with
  | .instruction, some df =>
      !(df.opCommand = toHash "DEPOSIT" || df.opCommand = toHash "BACKSTOP_DEPOSIT") ||
        v.sent.contains { opCommand := df.opCommand, message := df.originalMessage }
  | _, _ => true

/-- Such instructions are delivered only once they were sent; how often and in which order is
open. -/
def Delivered (S : Setup) (w : World) : Move → Bool
  | .receive action => action.Sent S w.vault
  | _ => true

/-- What runs with such deliveries keep. -/
structure Attributed (S : Setup) (w : World) : Prop where
  coherent : Coherent S w
  sent : ∀ (pid : Nat) (h : Started), w.handlers[pid]? = some h → h.action.Sent S w.vault = true

section Runs

variable {S : Setup} {w w' : World}

theorem Action.Sent.mem {v : Vault} {action : Action} {command : String} {df : DataFixed}
    (h : action.Sent S v = true) (hsent : InstructionOf S.platform action command df)
    (hcommand : command = "DEPOSIT" ∨ command = "BACKSTOP_DEPOSIT") :
    { opCommand := df.opCommand, message := df.originalMessage } ∈ v.sent := by
  have hfunding : (df.opCommand = toHash "DEPOSIT" || df.opCommand = toHash "BACKSTOP_DEPOSIT") =
      true := by
    rw [hsent.command]
    rcases hcommand with rfl | rfl <;> simp
  unfold Action.Sent at h
  rw [hsent.type, hsent.parsed] at h
  simpa [hfunding] using h

theorem Action.Sent.mono {v v' : Vault} {action : Action} (h : action.Sent S v = true)
    (hsent : v.sent <+: v'.sent) : action.Sent S v' = true := by
  unfold Action.Sent at h ⊢
  cases htype : action.actionType with
  | instruction =>
      rw [htype] at h
      cases hparsed : S.platform.dataFixed action.message with
      | none => trivial
      | some df =>
          rw [hparsed] at h
          simp only [Bool.or_eq_true, List.contains_iff_mem] at h ⊢
          exact h.imp (fun hother => hother) fun hmem => hsent.subset hmem
  | _ => trivial

theorem step_sent {move : Move} (hw : w.step S move = .ok w') : w.vault.sent <+: w'.vault.sent := by
  cases move with
  | receive action => cases hw; exact List.prefix_rfl
  | advance pid a =>
      obtain ⟨started, r, k, _, _, _, rfl⟩ := advance_ok hw
      dsimp only
      rw [(respond_frame S pid started a w r).1]
  | transact tx call =>
      obtain ⟨v, hv, rfl⟩ := transact_ok hw
      exact apply_sent hv
  | execute tx settlement =>
      obtain ⟨_, v, hv, rfl⟩ := execute_ok hw
      obtain ⟨_, _, _, _, _, rfl⟩ := executeSettlement_ok hv
      exact List.prefix_rfl
  | restart => cases hw; exact List.prefix_rfl

theorem attributed_step {move : Move} (h : Attributed S w) (hguard : Delivered S w move = true)
    (hw : w.step S move = .ok w') : Attributed S w' := by
  refine ⟨coherent_step h.coherent hw, ?_⟩
  intro pid h' hget'
  rcases step_handlers hw hget' with ⟨started, hget, rfl⟩ | ⟨rfl, _⟩ |
    ⟨a, started, r, k, rfl, hget, _, rfl⟩
  · exact Action.Sent.mono (h.sent pid h' hget) (step_sent hw)
  · exact Action.Sent.mono hguard (step_sent hw)
  · exact Action.Sent.mono (h.sent pid started hget) (step_sent hw)

theorem attributed_worldAfter {moves : List Move}
    (h : Machine.Meets (World.step S) (fun w move => Delivered S w move = true) {} moves) :
    Attributed S (worldAfter S moves) :=
  Machine.invariant_of_meets (fun _ _ _ hi hg hw => attributed_step hi hg hw)
    ⟨coherent_init, by simp⟩ moves h

/-- **A committed credit is that of a funding.** -/
theorem Attributed.credited (h : Attributed S w) {c : State × Call} {op : Operation}
    (hc : c ∈ w.commits S) (hop : c.2.Operates op) (hcredit : op.kind.isCredit = true) :
    ∃ f ∈ w.vault.fundings, f.CreditedBy S.platform.keccak256 S.config op := by
  obtain ⟨ctx, stored, hevent⟩ := hop
  obtain ⟨_, ⟨payout, hgrounds⟩, started, hget, haction, hsuffix⟩ :=
    h.coherent.commits c hc ctx stored op hevent
  have hsent := h.sent _ started hget
  rw [haction] at hsent
  have hbooks := h.coherent.books
  have hfits : ∀ {f : Funding}, f ∈ w.vault.fundings → (UInt64.ofNat f.amount).toNat = f.amount :=
    fun hf => UInt64.toNat_ofNat_of_lt' (hbooks.valid _ hf).fits
  cases hgrounds with
  | deposit sent decoded supported =>
      obtain ⟨f, hf, hkind, hmessage⟩ :=
        hbooks.deposits _ (Action.Sent.mem hsent sent (Or.inl rfl)) sent.command
      dsimp only at hmessage
      rw [hmessage, decodeDeposit_message (hbooks.valid f hf)] at decoded
      cases decoded
      exact ⟨f, hf, hkind, rfl, supported, hfits hf, rfl⟩
  | backstop sent decoded =>
      obtain ⟨f, hf, hkind, hmessage⟩ :=
        hbooks.backstops _ (Action.Sent.mem hsent sent (Or.inr rfl)) sent.command
      dsimp only at hmessage
      rw [hmessage, decodeBackstopDeposit_message (hbooks.valid f hf)] at decoded
      cases decoded
      exact ⟨f, hf, hkind, hfits hf, rfl⟩
  | recoverDeposit _ _ _ read unpacked matching supported =>
      have hread := h.coherent.recalls _ started hget _
        (hsuffix.subset (List.mem_cons_of_mem _ read))
      obtain ⟨record, rfl, hrecord⟩ := hread
      have hmatch := checkDepositRecord_ok matching
      rcases hrecord with rfl | ⟨f, hf, hkind, hid, haccount, htoken, hamount⟩
      · -- an id that was never issued has no record
        rw [unpackDepositRecord_pack (by decide)] at unpacked
        cases unpacked
        exact absurd rfl hmatch.1
      · rw [unpackDepositRecord_pack (by rw [hamount]; exact (hbooks.valid f hf).fits)] at unpacked
        cases unpacked
        obtain ⟨_, hpaid, hcoin, hworth⟩ := hmatch
        refine ⟨f, hf, hkind, ?_, ?_, ?_, ?_⟩
        · rw [← haccount, hpaid]
        · rw [← htoken, hcoin]
          exact supported
        · rw [← hamount, hworth]
        · rw [hid]
  | _ => cases hcredit

/-- No two commits of the system record the same identifier. -/
theorem World.records_pairwise (S : Setup) (w : World) :
    (w.commits S).Pairwise fun c c' => ∀ id, c.2.event.records id → ¬ c'.2.event.records id := by
  have hpairs := QuietLine.records_pairwise S.host w.events
  rw [commits_events, List.pairwise_map] at hpairs
  exact hpairs

theorem Call.Operates.records {c : Call} {op : Operation} (h : c.Operates op)
    (hcredit : op.kind.isCredit = true) : c.event.records op.operationID := by
  obtain ⟨ctx, stored, hevent⟩ := h
  rw [hevent]
  cases op with
  | deposit | seedBackstop => exact ⟨rfl, rfl⟩
  | _ => cases hcredit

/-- What the commits so far have credited in an asset. -/
def World.credited (S : Setup) (w : World) (name : String) : Nat :=
  ((w.commits S).map fun c => c.2.event.credit name).sum

/-- Each credit is covered by a funding of its own. -/
theorem Attributed.credited_le (h : Attributed S w) (name : String) :
    w.credited S name ≤ w.vault.received S.config name := by
  refine MapSum.sum_le_of_matching (R := fun (c : State × Call) f =>
    ∃ op, c.2.Operates op ∧ f.CreditedBy S.platform.keccak256 S.config op) ?_ ?_
  · intro c hc hne
    cases hevent : c.2.event with
    | confirm => rw [hevent] at hne; exact absurd rfl hne
    | operate ctx stored op =>
        rw [hevent] at hne
        have hcredit : op.kind.isCredit = true := by
          cases op with
          | deposit | seedBackstop => rfl
          | _ => exact absurd rfl hne
        obtain ⟨f, hf, hcredited⟩ := h.credited hc ⟨ctx, stored, hevent⟩ hcredit
        exact ⟨f, hf, ⟨op, ⟨ctx, stored, hevent⟩, hcredited⟩,
          hcredited.credit_le h.coherent.books hf name hne⟩
  · refine (w.records_pairwise S).imp ?_
    rintro c c' hR f ⟨op, hop, hcredited⟩ ⟨op', hop', hcredited'⟩
    obtain ⟨hcredit, _, hid⟩ := hcredited.isCredit
    obtain ⟨hcredit', _, hid'⟩ := hcredited'.isCredit
    refine hR _ (hop.records hcredit) ?_
    rw [hid, ← hid']
    exact hop'.records hcredit'

end Runs

/-- **Every deposit is credited at most once and as recorded.**  Each committed credit, by
instruction or by recovery, is that of one funding the vault has issued an id for: its account, its
asset, its amount; a deposit's id still names its record; two credits under one id are one commit;
and no asset is credited beyond what the vault has received of it. -/
theorem deposits_credited_once (S : Setup) (moves : List Move)
    (hdelivered : Machine.Meets (World.step S) (fun w move => Delivered S w move = true) {} moves)
    (hfree : CollisionFree S.platform.keccak256
      ((worldAfter S moves).vault.fundings.map (Funding.preimage S.config))) :
    (∀ c ∈ (worldAfter S moves).commits S, ∀ op, c.2.Operates op → op.kind.isCredit = true →
      ∃ f ∈ (worldAfter S moves).vault.fundings,
        f.CreditedBy S.platform.keccak256 S.config op ∧
        (∀ g ∈ (worldAfter S moves).vault.fundings,
          (g.depositID S.platform.keccak256 S.config).hex = op.operationID → g = f) ∧
        (f.isBackstop = false → RecordedAs S.platform.keccak256 S.config f
          (f.depositID S.platform.keccak256 S.config)
          ((worldAfter S moves).vault.depositById
            (f.depositID S.platform.keccak256 S.config)))) ∧
    (∀ c ∈ (worldAfter S moves).commits S, ∀ c' ∈ (worldAfter S moves).commits S, ∀ op op',
      c.2.Operates op → c'.2.Operates op' → op.kind.isCredit = true → op'.kind.isCredit = true →
        op.operationID = op'.operationID → c = c') ∧
    ∀ name, (worldAfter S moves).credited S name ≤
      (worldAfter S moves).vault.received S.config name := by
  have hattributed := attributed_worldAfter hdelivered
  have hbooks := hattributed.coherent.books
  refine ⟨?_, ?_, hattributed.credited_le⟩
  · intro c hc op hop hcredit
    obtain ⟨f, hf, hcredited⟩ := hattributed.credited hc hop hcredit
    refine ⟨f, hf, hcredited, ?_, ?_⟩
    · intro g hg hid
      rw [hcredited.isCredit.2.2] at hid
      exact hbooks.funding_of_id hfree hg hf (Hash.hex_inj hid)
    · intro hkind
      obtain ⟨g, hg, hrecorded⟩ := hbooks.issued f hf hkind
      obtain rfl := hbooks.funding_of_id hfree hg hf hrecorded.id
      exact hrecorded
  · intro c hc c' hc' op op' hop hop' hcredit hcredit' hid
    have hrecords := hop.records hcredit
    have hrecords' := hop'.records hcredit'
    rw [← hid] at hrecords'
    exact Machine.eq_of_pairwise ((worldAfter S moves).records_pairwise S) hc hc'
      (fun hR => hR _ hrecords hrecords') (fun hR => hR _ hrecords' hrecords)

/-- A deposit whose instruction is delivered again after it was credited. -/
def redeliveredDeposit : List Move :=
  depositSettled sampleSetup.config.fxrp ++
    [.receive (sampleAction 4 .instruction "DEPOSIT" (depositMessage samplePlatform.keccak256
      sampleSetup.config (sampleFunding sampleSetup.config.fxrp)))] ++ sampleAdvance 2 1

/-- What it leads to. -/
def redelivered : World := worldAfter sampleSetup redeliveredDeposit

/-- The deposit is credited as it was paid in, in one commit, and no more than it. -/
theorem deposits_credited_once_redelivered :
    (∀ c ∈ redelivered.commits sampleSetup, ∀ op, c.2.Operates op → op.kind.isCredit = true →
      (sampleFunding sampleSetup.config.fxrp).CreditedBy sampleSetup.platform.keccak256
          sampleSetup.config op ∧
        RecordedAs sampleSetup.platform.keccak256 sampleSetup.config
          (sampleFunding sampleSetup.config.fxrp)
          ((sampleFunding sampleSetup.config.fxrp).depositID sampleSetup.platform.keccak256
            sampleSetup.config)
          (redelivered.vault.depositById
            ((sampleFunding sampleSetup.config.fxrp).depositID sampleSetup.platform.keccak256
              sampleSetup.config))) ∧
    (∀ c ∈ redelivered.commits sampleSetup, ∀ c' ∈ redelivered.commits sampleSetup, ∀ op op',
      c.2.Operates op → c'.2.Operates op' → op.kind.isCredit = true → op'.kind.isCredit = true →
        c = c') ∧
    ∀ name, redelivered.credited sampleSetup name ≤
      redelivered.vault.received sampleSetup.config name := by
  have hfundings : redelivered.vault.fundings = [sampleFunding sampleSetup.config.fxrp] := by
    decide +kernel
  have hfree : CollisionFree sampleSetup.platform.keccak256
      ((worldAfter sampleSetup redeliveredDeposit).vault.fundings.map
        (Funding.preimage sampleSetup.config)) := by
    rw [← redelivered, hfundings]
    intro x hx y hy _
    rw [List.mem_singleton.mp hx, List.mem_singleton.mp hy]
  have honce := deposits_credited_once sampleSetup redeliveredDeposit
    (Machine.meets_of_checks (by decide +kernel)) hfree
  rw [← redelivered] at honce
  obtain ⟨hcredited, hunique, htotal⟩ := honce
  have honly : ∀ f ∈ redelivered.vault.fundings, f = sampleFunding sampleSetup.config.fxrp := by
    rw [hfundings]
    exact fun f hf => List.mem_singleton.mp hf
  have hpaid : ∀ c ∈ redelivered.commits sampleSetup, ∀ op, c.2.Operates op →
      op.kind.isCredit = true → (sampleFunding sampleSetup.config.fxrp).CreditedBy
        sampleSetup.platform.keccak256 sampleSetup.config op := by
    intro c hc op hop hcredit
    obtain ⟨f, hf, hby, _⟩ := hcredited c hc op hop hcredit
    obtain rfl := honly f hf
    exact hby
  refine ⟨fun c hc op hop hcredit => ⟨hpaid c hc op hop hcredit, ?_⟩, ?_, htotal⟩
  · obtain ⟨f, hf, _, _, hrecorded⟩ := hcredited c hc op hop hcredit
    obtain rfl := honly f hf
    exact hrecorded rfl
  · intro c hc c' hc' op op' hop hop' hcredit hcredit'
    refine hunique c hc c' hc' op op' hop hop' hcredit hcredit' ?_
    rw [(hpaid c hc op hop hcredit).isCredit.2.2, (hpaid c' hc' op' hop' hcredit').isCredit.2.2]

end QuietLine
