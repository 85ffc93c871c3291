/-
Every debit is paid out, as long as handlers do not overtake each other.

A handler commits its operation and reads the anchor it has to settle in two calls
of the engine.  If the anchor it finds is its own, the settlement it signs pays what
the operation owes (`Settlement.Carries`).  Nothing makes it its own: once its own
anchor has been recovered, executed and confirmed by others, a slow handler finds
the anchor of someone else's withdrawal and signs a checkpoint for it.
-/
import QuietLine.Proofs.Anchors

namespace QuietLine

open Outcome

/-! ### What an operation owes -/

/-- The operations whose anchor has to pay tokens out of the vault. -/
def OpKind.movesFunds : OpKind → Bool
  | .borrowAccept | .withdrawRequest | .withdrawFromMandate => true
  | _ => false

/-- The payout is that of the operation: its tokens, its amount, for its account. -/
def Operation.Owes (P : Platform) (cfg : Config) (op : Operation) (payout : Payout) : Prop :=
  match op with
  | .acceptQuote q _ _ _ => payout.settlementType = .borrowPayout ∧ payout.token = cfg.usdt0 ∧
      payout.amount = q.amount ∧ payout.destination = payout.account ∧
      q.borrower = payout.account.hex P.keccak256
  | .withdraw owner asset amount _ _ => payout.settlementType = .userWithdrawal ∧
      assetForToken cfg payout.token = .ok asset ∧ payout.amount = amount ∧
      owner = payout.account.hex P.keccak256
  | .withdrawFromMandate owner _ amount _ _ => payout.settlementType = .userWithdrawal ∧
      payout.token = cfg.usdt0 ∧ payout.amount = amount ∧
      owner = payout.account.hex P.keccak256
  | _ => payout.settlementType = .checkpoint

theorem Grounds.owes {P : Platform} {cfg : Config} {action : Action} {t : Trace} {op : Operation}
    {payout : Payout} (h : Grounds P cfg action t op payout) : op.Owes P cfg payout := by
  cases h with
  | withdrawal _ _ supported => exact ⟨rfl, supported, rfl, rfl⟩
  | borrowAccept => exact ⟨rfl, rfl, rfl, rfl, rfl⟩
  | withdrawFromMandate => exact ⟨rfl, rfl, rfl, rfl⟩
  | _ => rfl

/-- The settlement pays this and nothing else. -/
structure Settlement.Carries (settlement : Settlement) (payout : Payout) : Prop where
  settlementType : settlement.settlementType = payout.settlementType
  account : settlement.account = payout.account
  token : settlement.token = payout.token
  amount : settlement.amount = payout.amount.toNat
  destination : settlement.destination = payout.destination

/-! ### Commits and their anchors -/

section Commits

variable {S : Setup} {w w' : World}

/-- While an anchor is pending, the last commit is the one it belongs to. -/
theorem pending_last (host : Host) (calls : List Call) {p : PendingAnchor}
    (hp : (Machine.run (callStep host) newState calls).pendingAnchor = some p) :
    ∃ c op, (Machine.commits (callStep host) newState calls).getLast? = some c ∧
      c.2.Operates op ∧ op.kind = p.kind ∧ p.nextSequence = c.1.sequence + 1 := by
  refine Machine.history (fun past (s : State) => ∀ p, s.pendingAnchor = some p →
    ∃ c op, past.getLast? = some c ∧ Call.Operates c.2 op ∧ op.kind = p.kind ∧
      p.nextSequence = c.1.sequence + 1) ?_ (by simp [newState]) calls p hp
  intro past s c s' _ hs p hp
  refine ⟨(s, c), ?_⟩
  cases hevent : c.event with
  | operate ctx stored op =>
      unfold callStep at hs
      rw [hevent] at hs
      obtain ⟨_, _, next, _, rfl⟩ := Operation.apply_ok hs
      cases hp
      exact ⟨op, by simp, ⟨ctx, stored, hevent⟩, rfl, rfl⟩
  | confirm sequence root stored =>
      unfold callStep at hs
      rw [hevent] at hs
      obtain rfl := confirmAnchor_ok hs
      cases hp

theorem sequence_mono {host : Host} {s s' : State} {c : Call} (hs : callStep host s c = .ok s') :
    s.sequence ≤ s'.sequence ∧ ∀ op, c.Operates op → s'.sequence = s.sequence + 1 := by
  obtain ⟨pid, action, trace, event⟩ := c
  cases event with
  | operate ctx stored op =>
      obtain ⟨_, _, next, _, rfl⟩ := Operation.apply_ok hs
      exact ⟨Nat.le_succ _, fun _ _ => rfl⟩
  | confirm sequence root stored =>
      obtain rfl := confirmAnchor_ok hs
      exact ⟨Nat.le_refl _, by rintro op ⟨_, _, h⟩; cases h⟩

/-- A commit of an operation takes the next number, which no other commit has. -/
theorem commits_by_sequence {c c' : State × Call} {op op' : Operation} (hc : c ∈ w.commits S)
    (hc' : c' ∈ w.commits S) (hop : c.2.Operates op) (hop' : c'.2.Operates op')
    (hseq : c.1.sequence = c'.1.sequence) : c = c' := by
  have hpairs : (w.commits S).Pairwise
      fun c c' => ∀ op, c.2.Operates op → c.1.sequence < c'.1.sequence :=
    (Machine.pairwise_commits
      (Q := fun (c : State × Call) s => ∀ op, c.2.Operates op → c.1.sequence < s.sequence)
      (fun s c s' hs op hop => by rw [(sequence_mono hs).2 op hop]; exact Nat.lt_succ_self _)
      (fun c s a s' hQ hs op hop => Nat.lt_of_lt_of_le (hQ op hop) (sequence_mono hs).1)
      newState w.calls).1
  refine Machine.eq_of_pairwise hpairs hc hc' ?_ ?_
  · intro hR
    exact absurd hseq (Nat.ne_of_lt (hR op hop))
  · intro hR
    exact absurd hseq.symm (Nat.ne_of_lt (hR op' hop'))

/-- The commit of an anchor that was once pending. -/
theorem World.Past.commit {s : State} {p : PendingAnchor} (hs : w.Past S s)
    (hp : s.pendingAnchor = some p) :
    ∃ c ∈ w.commits S, ∃ op, c.2.Operates op ∧ op.kind = p.kind ∧
      p.nextSequence = c.1.sequence + 1 := by
  obtain ⟨before, ⟨rest, hrest⟩, rfl⟩ := hs
  obtain ⟨c, op, hlast, hop, hkind, hseq⟩ := pending_last S.host before hp
  refine ⟨c, ?_, op, hop, hkind, hseq⟩
  unfold World.commits
  rw [← hrest, Machine.commits_append]
  exact List.mem_append_left _ (List.mem_of_getLast? hlast)

end Commits

/-! ### Handlers that do not overtake each other -/

/-- The handler that committed last. -/
def World.installer (S : Setup) (w : World) : Option Nat :=
  (w.commits S).getLast?.map fun c => c.2.pid

/-- The handler is about to read the anchor it will settle. -/
def Started.settles (h : Started) : Bool :=
  match h.process with
  | .call (.state .settlement) _ => true
  | _ => false

/-- No handler takes the read it draws a settlement from while the anchor of another handler's
fund movement is pending. -/
def Undisturbed (S : Setup) (w : World) : Move → Bool
  | .advance pid _ =>
      !(w.handlers[pid]?.any Started.settles) ||
        !(w.ledger.pendingAnchor.any fun p => p.kind.movesFunds) ||
        w.installer S = some pid
  | _ => true

/-- What undisturbed runs keep. -/
structure PayoutsKept (S : Setup) (w : World) : Prop where
  linked : Linked S w
  /-- A handler that found the anchor of a fund movement found its own. -/
  reads : ∀ (pid : Nat) (h : Started) (s : State) (t : Trace), w.handlers[pid]? = some h →
    (⟨.state .settlement, s⟩ :: t : Trace) <:+ h.trace → ∀ p, s.pendingAnchor = some p →
      p.kind.movesFunds = true → ∃ c ∈ w.commits S, ∃ op, c.2.Operates op ∧
        h.action = c.2.action ∧ t = ⟨.mutate op, .ok ()⟩ :: c.2.trace ∧
        p.nextSequence = c.1.sequence + 1
  paid : ∀ settlement ∈ w.signed, ∀ c ∈ w.commits S, ∀ op, c.2.Operates op →
    op.kind.movesFunds = true → settlement.nextSequence = c.1.sequence + 1 →
      ∃ payout, Grounds S.platform S.config c.2.action c.2.trace op payout ∧
        settlement.Carries payout

section Kept

variable {S : Setup} {w w' : World}

/-- What a handler has done up to the read it settles from, if it is the handler that committed. -/
theorem Coherent.trace_of_installer (h : Coherent S w) {pid : Nat} {started : Started}
    {k : State → Running} (hget : w.handlers[pid]? = some started)
    (hp : started.process = .call (.state .settlement) k) {c : State × Call} {op : Operation}
    (hc : c ∈ w.commits S) (hop : c.2.Operates op) (hpid : c.2.pid = pid) :
    started.action = c.2.action ∧ started.trace = ⟨.mutate op, .ok ()⟩ :: c.2.trace := by
  obtain ⟨ctx, stored, hevent⟩ := hop
  obtain ⟨_, _, s, hs, haction, hsuffix⟩ := h.commits c hc ctx stored op hevent
  rw [hpid, hget] at hs
  obtain rfl := Option.some.inj hs
  refine ⟨haction, ?_⟩
  have hobeys := h.obeys pid started hget
  rw [hp] at hobeys
  obtain ⟨payout, hanchors⟩ := hobeys.allowed
  generalize started.trace = t at hanchors hsuffix
  cases hanchors with
  | own untouched grounds =>
      rcases List.suffix_cons_iff.mp hsuffix with heq | hin
      · exact heq.symm
      · -- a handler calls the engine once
        exact absurd rfl (untouched _ (hin.subset List.mem_cons_self) op)
  | recovered found recoverable =>
      have hmem := hsuffix.subset List.mem_cons_self
      simp at hmem

/-- An undisturbed handler finds its own anchor. -/
theorem PayoutsKept.own_read (h : PayoutsKept S w) {pid : Nat} {started : Started} {a : Answer}
    {k : State → Running} (hget : w.handlers[pid]? = some started)
    (hp : started.process = .call (.state .settlement) k)
    (hguard : Undisturbed S w (.advance pid a) = true) {p : PendingAnchor}
    (hpending : w.ledger.pendingAnchor = some p) (hfunds : p.kind.movesFunds = true) :
    ∃ c ∈ w.commits S, ∃ op, c.2.Operates op ∧ started.action = c.2.action ∧
      started.trace = ⟨.mutate op, .ok ()⟩ :: c.2.trace ∧ p.nextSequence = c.1.sequence + 1 := by
  have hinstaller : w.installer S = some pid := by
    have hsettles : started.settles = true := by
      unfold Started.settles
      rw [hp]
    simpa [Undisturbed, hget, hsettles, hpending, hfunds] using hguard
  have hrun := h.linked.coherent.ledger
  rw [hrun] at hpending
  obtain ⟨c, op, hlast, hop, _, hseq⟩ := pending_last S.host w.calls hpending
  replace hlast : (w.commits S).getLast? = some c := hlast
  have hpid : c.2.pid = pid := by
    unfold World.installer at hinstaller
    rw [hlast] at hinstaller
    exact Option.some.inj hinstaller
  have hc : c ∈ w.commits S := List.mem_of_getLast? hlast
  obtain ⟨haction, htrace⟩ := h.linked.coherent.trace_of_installer hget hp hc hop hpid
  exact ⟨c, hc, op, hop, haction, htrace, hseq⟩

/-- What a handler signs for a fund movement is what the movement owes. -/
theorem PayoutsKept.signs (h : PayoutsKept S w) {pid : Nat} {started : Started}
    {settlement : Settlement} {k : Response (.sign settlement) → Running}
    (hget : w.handlers[pid]? = some started)
    (hp : started.process = .call (.sign settlement) k) {c : State × Call} {op : Operation}
    (hc : c ∈ w.commits S) (hop : c.2.Operates op) (hfunds : op.kind.movesFunds = true)
    (hseq : settlement.nextSequence = c.1.sequence + 1) :
    ∃ payout, Grounds S.platform S.config c.2.action c.2.trace op payout ∧
      settlement.Carries payout := by
  have hcoherent := h.linked.coherent
  have hobeys := hcoherent.obeys pid started hget
  rw [hp] at hobeys
  obtain ⟨t, s, p, now, payout, htrace, hanchors, hpending, rfl⟩ := hobeys.allowed
  have hpast : w.Past S s := by
    refine hcoherent.recalls pid started hget ⟨.state .settlement, s⟩ ?_
    rw [htrace]
    simp
  -- the anchor it read is that of the commit, so a fund movement's
  obtain ⟨c₁, hc₁, op₁, hop₁, hkind, hseq₁⟩ := hpast.commit hpending
  have hnumber : p.nextSequence = c.1.sequence + 1 := hseq
  obtain rfl := commits_by_sequence hc₁ hc hop₁ hop (by omega)
  obtain rfl := hop.unique hop₁
  obtain ⟨c₂, hc₂, op₂, hop₂, haction, ht, hseq₂⟩ := h.reads pid started s t hget
    (by rw [htrace]; exact List.suffix_cons _ _) p hpending (by rw [← hkind]; exact hfunds)
  obtain rfl := commits_by_sequence hc₂ hc hop₂ hop (by omega)
  obtain rfl := hop₂.unique hop
  rw [ht] at hanchors
  rw [haction] at hanchors
  cases hanchors with
  | own untouched grounds => exact ⟨payout, grounds, rfl, rfl, rfl, rfl, rfl⟩

theorem kept_step {move : Move} (h : PayoutsKept S w) (hguard : Undisturbed S w move = true)
    (hw : w.step S move = .ok w') : PayoutsKept S w' := by
  have hchanges := h.linked.coherent.step_changes hw
  have hlonger := hchanges.commits_prefix.subset
  refine ⟨linked_step h.linked hw, ?_, ?_⟩
  · intro pid h' s t hget' hsuffix p hpending hfunds
    rcases step_handlers hw hget' with ⟨started, hget, rfl⟩ | ⟨_, hnew, _⟩ |
      ⟨a, started, r, k, rfl, hget, hp, rfl⟩
    · obtain ⟨c, hc, hrest⟩ := h.reads pid h' s t hget hsuffix p hpending hfunds
      exact ⟨c, hlonger hc, hrest⟩
    · rw [hnew] at hsuffix
      simp at hsuffix
    · rcases List.suffix_cons_iff.mp hsuffix with heq | hold
      · -- the handler has just read the state
        cases heq
        obtain ⟨c, hc, hrest⟩ := h.own_read hget hp hguard hpending hfunds
        exact ⟨c, hlonger hc, hrest⟩
      · obtain ⟨c, hc, hrest⟩ := h.reads pid started s t hget hold p hpending hfunds
        exact ⟨c, hlonger hc, hrest⟩
  · have hkeep : w'.signed = w.signed → w'.commits S = w.commits S → ∀ settlement ∈ w'.signed,
        ∀ c ∈ w'.commits S, ∀ op, c.2.Operates op → op.kind.movesFunds = true →
          settlement.nextSequence = c.1.sequence + 1 →
            ∃ payout, Grounds S.platform S.config c.2.action c.2.trace op payout ∧
              settlement.Carries payout := by
      intro hsigned hcommits
      rw [hsigned, hcommits]
      exact h.paid
    cases hchanges with
    | quiet _ hcommits _ hsigned => exact hkeep hsigned hcommits
    | transacted _ _ hcommits hsigned => exact hkeep hsigned hcommits
    | executed _ _ _ hcommits hsigned => exact hkeep hsigned hcommits
    | signed hget hp _ hcommits _ hsigned =>
        rw [hsigned, hcommits]
        intro settlement hmem c hc op hop hfunds hseq
        rcases List.mem_append.mp hmem with hmem | hmem
        · exact h.paid settlement hmem c hc op hop hfunds hseq
        · obtain rfl := List.mem_singleton.mp hmem
          exact h.signs hget hp hc hop hfunds hseq
    | committed _ _ _ _ hcommits _ hsigned =>
        rw [hsigned, hcommits]
        intro settlement hmem c hc op hop hfunds hseq
        rcases List.mem_append.mp hc with hc | hc
        · exact h.paid settlement hmem c hc op hop hfunds hseq
        · -- nothing has been signed for an anchor that is yet to come
          obtain rfl := List.mem_singleton.mp hc
          have hbehind := (h.linked.signed settlement hmem).behind
          exact absurd hseq (by dsimp only; omega)
    | confirmed _ _ _ _ hcommits _ hsigned =>
        rw [hsigned, hcommits]
        intro settlement hmem c hc op hop hfunds hseq
        rcases List.mem_append.mp hc with hc | hc
        · exact h.paid settlement hmem c hc op hop hfunds hseq
        · obtain rfl := List.mem_singleton.mp hc
          obtain ⟨_, _, hevent⟩ := hop
          cases hevent

theorem kept_init : PayoutsKept S {} where
  linked := linked_init
  reads := by simp
  paid := by simp

theorem kept_worldAfter (moves : List Move)
    (h : Machine.Meets (World.step S) (fun w move => Undisturbed S w move = true) {} moves) :
    PayoutsKept S (worldAfter S moves) :=
  Machine.invariant_of_meets (fun _ _ _ hi hg hw => kept_step hi hg hw) kept_init moves h

theorem executed_signed_step {move : Move} (h : w.vault.executed ⊆ w.signed)
    (hw : w.step S move = .ok w') : w'.vault.executed ⊆ w'.signed := by
  cases move with
  | receive action => cases hw; exact h
  | advance pid a =>
      obtain ⟨started, r, k, _, _, _, rfl⟩ := advance_ok hw
      obtain ⟨hvault, _, _, _, hsigned⟩ := respond_frame S pid started a w r
      dsimp only
      rw [hvault]
      exact List.Subset.trans h hsigned.subset
  | transact tx call =>
      obtain ⟨v, hv, rfl⟩ := transact_ok hw
      obtain ⟨_, _, hexecuted, _⟩ := apply_frame hv
      dsimp only
      rw [hexecuted]
      exact h
  | execute tx settlement =>
      obtain ⟨hmem, v, hv, rfl⟩ := execute_ok hw
      obtain ⟨_, _, _, _, _, rfl⟩ := executeSettlement_ok hv
      exact List.append_subset.mpr ⟨h, by simpa using hmem⟩
  | restart => cases hw; exact h

/-- Only what has been signed is executed. -/
theorem executed_signed (S : Setup) (moves : List Move) :
    (worldAfter S moves).vault.executed ⊆ (worldAfter S moves).signed :=
  Machine.invariant (fun _ _ _ h hw => executed_signed_step h hw) (List.Subset.refl []) moves

end Kept

/-- Every settlement signed for the anchor of a fund movement is the payout of that movement. -/
def PayoutIntegrity (S : Setup) (w : World) : Prop :=
  ∀ settlement ∈ w.signed, ∀ c ∈ w.commits S, ∀ op, c.2.Operates op → op.kind.movesFunds = true →
    settlement.nextSequence = c.1.sequence + 1 →
      ∃ payout, Grounds S.platform S.config c.2.action c.2.trace op payout ∧
        op.Owes S.platform S.config payout ∧ settlement.Carries payout

/-- **A run in which no handler reads another handler's fund movement signs nothing but its
payouts**, and the vault executes nothing else. -/
theorem payouts_of_undisturbed (S : Setup) (moves : List Move)
    (h : Machine.Meets (World.step S) (fun w move => Undisturbed S w move = true) {} moves) :
    PayoutIntegrity S (worldAfter S moves) ∧
      (worldAfter S moves).vault.executed ⊆ (worldAfter S moves).signed := by
  refine ⟨?_, executed_signed S moves⟩
  intro settlement hmem c hc op hop hfunds hseq
  obtain ⟨payout, hgrounds, hcarries⟩ :=
    (kept_worldAfter moves h).paid settlement hmem c hc op hop hfunds hseq
  exact ⟨payout, hgrounds, hgrounds.owes, hcarries⟩

/-! ### A slow handler -/

/-- Account 10 asks for its deposit back, and handler `pid` commits the withdrawal. -/
def withdrawalCommitted (pid : Nat) : List Move :=
  [.transact (sampleTx 10 0) (.requestWithdrawal sampleSetup.config.fxrp 100 (sampleAddress 11)),
    .receive (sampleAction 3 .instruction "WITHDRAW_REQUEST"
      (withdrawalMessage (sampleAddress 10) sampleSetup.config.fxrp 100 (sampleAddress 11)))] ++
    sampleAdvance pid 3

/-- The anchor of the deposit is recovered and confirmed while the handler of the deposit waits;
when it goes on, it finds the withdrawal. -/
def overtakenDeposit : List Move :=
  depositCommitted sampleSetup.config.fxrp ++
    [.receive (sampleAction 2 .direct "RECOVER_ANCHOR" [])] ++ sampleAdvance 1 4 ++
    sampleSettled 2 0 (depositCheckpoint sampleSetup.config.fxrp 2 Address.zero) ++
    withdrawalCommitted 3 ++ sampleAdvance 0 3

/-- It signs a checkpoint, and the withdrawal is never paid. -/
theorem overtakenDeposit_unpaid :
    ¬ PayoutIntegrity sampleSetup (worldAfter sampleSetup overtakenDeposit) := by
  intro h
  have hsigned : (worldAfter sampleSetup overtakenDeposit).signed.any (fun settlement =>
      settlement.nextSequence = 2 && settlement.settlementType = .checkpoint) = true := by
    decide +kernel
  have hcommitted : ((worldAfter sampleSetup overtakenDeposit).commits sampleSetup).any (fun c =>
      c.1.sequence = 1 && c.2.event.isOf .withdrawRequest) = true := by
    decide +kernel
  obtain ⟨settlement, hmem, hsettlement⟩ := List.any_eq_true.mp hsigned
  obtain ⟨⟨s, pid, action, trace, event⟩, hc, hcommit⟩ := List.any_eq_true.mp hcommitted
  simp only [Bool.and_eq_true, decide_eq_true_eq] at hsettlement hcommit
  cases event with
  | confirm => simp [Event.isOf] at hcommit
  | operate ctx stored op =>
      obtain ⟨hsequence, hkind⟩ := hcommit
      replace hkind : op.kind = .withdrawRequest := of_decide_eq_true hkind
      obtain ⟨payout, _, howes, hcarries⟩ := h settlement hmem _ hc op ⟨ctx, stored, rfl⟩
        (by rw [hkind]; rfl) (by rw [hsettlement.1, hsequence])
      cases op with
      | withdraw =>
          have htype := hcarries.settlementType
          rw [hsettlement.2, howes.1] at htype
          cases htype
      | _ => cases hkind

/-- In turn, the deposit is settled before the withdrawal is asked for. -/
def orderlyDeposit : List Move :=
  depositSettled sampleSetup.config.fxrp ++ withdrawalCommitted 2 ++ sampleAdvance 2 3

theorem payouts_of_undisturbed_orderly :
    PayoutIntegrity sampleSetup (worldAfter sampleSetup orderlyDeposit) ∧
      (worldAfter sampleSetup orderlyDeposit).vault.executed ⊆
        (worldAfter sampleSetup orderlyDeposit).signed :=
  payouts_of_undisturbed sampleSetup orderlyDeposit (Machine.meets_of_checks (by decide +kernel))

end QuietLine
