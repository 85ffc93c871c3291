/-
The ledger and the vault never diverge.

The engine numbers its states, and the vault is at the number of the last confirmed
one or of the one that is pending.  What makes this an invariant is that a signed
settlement, however late it is submitted, was drawn up from an anchor the engine had
then: either it is the anchor of the present state, or its sequence number is behind
and the vault refuses it (`Settlement.DrawnBy`).  Both ends of it are states of the
ledger, and there is one root for each number, so until the vault has moved past a
settlement it stands at one of its ends (`Linked.not_diverges`).
-/
import QuietLine.Proofs.Coherence

namespace QuietLine

open Outcome

/-! ### Anchors of the ledger -/

/-- `s'` is a later state than `s`, and the same one if it has the same number. -/
structure Later (s s' : State) : Prop where
  sequence : s.sequence ≤ s'.sequence
  same : s'.sequence = s.sequence → s'.root = s.root ∧
    ∀ p, s'.pendingAnchor = some p → s.pendingAnchor = some p

theorem Later.refl (s : State) : Later s s := ⟨Nat.le_refl _, fun _ => ⟨rfl, fun _ hp => hp⟩⟩

theorem later_step {host : Host} {s s₁ s₂ : State} {c : Call} (h : Later s s₁)
    (hs : callStep host s₁ c = .ok s₂) : Later s s₂ := by
  obtain ⟨pid, action, trace, event⟩ := c
  cases event with
  | operate ctx stored op =>
      obtain ⟨_, _, next, _, rfl⟩ := Operation.apply_ok hs
      have hnext : s.sequence < s₁.sequence + 1 := Nat.lt_succ_of_le h.sequence
      exact ⟨Nat.le_of_lt hnext, fun heq => absurd heq (Nat.ne_of_gt hnext)⟩
  | confirm sequence root stored =>
      obtain rfl := confirmAnchor_ok hs
      exact ⟨h.sequence, fun heq => ⟨(h.same heq).1, fun p hp => by cases hp⟩⟩

section Runs

variable {S : Setup} {w : World} {s : State}

/-- A state the engine was in has its own anchor, and the present state is a later one. -/
theorem Coherent.past_later (h : Coherent S w) (hs : w.Past S s) :
    s.OwnAnchor ∧ Later s w.ledger := by
  obtain ⟨before, ⟨rest, hrest⟩, rfl⟩ := hs
  constructor
  · exact Machine.invariant (fun _ _ _ _ hs => ownAnchor_step hs)
      (by intro p hp; cases hp) before
  · rw [h.ledger, ← hrest, Machine.run_append]
    exact Machine.invariant (fun _ _ _ hi hs => later_step hi hs) (Later.refl _) rest

end Runs

/-! ### One root for each number -/

/-- The ledger was at this sequence number with this root. -/
def World.Rooted (S : Setup) (w : World) (sequence : Nat) (root : Hash) : Prop :=
  ∃ s, w.Past S s ∧ s.sequence = sequence ∧ hexToHash s.root = root

section Roots

variable {S : Setup} {w w' : World} {s s' : State} {p : PendingAnchor} {sequence : Nat}
  {root root' : Hash}

theorem World.Rooted.mono (h : w.Rooted S sequence root) (hext : Extends w w') :
    w'.Rooted S sequence root := by
  obtain ⟨s, hs, hsequence, hroot⟩ := h
  exact ⟨s, hs.mono hext, hsequence, hroot⟩

theorem World.Rooted.behind (h : w.Rooted S sequence root) (hw : Coherent S w) :
    sequence ≤ w.ledger.sequence := by
  obtain ⟨s, hs, rfl, _⟩ := h
  exact (hw.past_later hs).2.sequence

/-- Of two states the ledger was in, one is the later. -/
theorem World.Past.comparable (h : w.Past S s) (h' : w.Past S s') : Later s s' ∨ Later s' s := by
  have hlater : ∀ before after : List Call, before <+: after →
      Later (Machine.run (callStep S.host) newState before)
        (Machine.run (callStep S.host) newState after) := by
    rintro before _ ⟨rest, rfl⟩
    rw [Machine.run_append]
    exact Machine.invariant (fun _ _ _ hi hs => later_step hi hs) (Later.refl _) rest
  obtain ⟨before, hbefore, rfl⟩ := h
  obtain ⟨before', hbefore', rfl⟩ := h'
  rcases List.prefix_or_prefix_of_prefix hbefore hbefore' with hle | hle
  · exact Or.inl (hlater _ _ hle)
  · exact Or.inr (hlater _ _ hle)

theorem World.Rooted.unique (h : w.Rooted S sequence root) (h' : w.Rooted S sequence root') :
    root = root' := by
  obtain ⟨s, hs, hsequence, rfl⟩ := h
  obtain ⟨s', hs', hsequence', rfl⟩ := h'
  rcases hs.comparable hs' with hlater | hlater
  · rw [(hlater.same (hsequence'.trans hsequence.symm)).1]
  · rw [(hlater.same (hsequence.trans hsequence'.symm)).1]

theorem Coherent.ledger_rooted (h : Coherent S w) :
    w.Rooted S w.ledger.sequence (hexToHash w.ledger.root) :=
  ⟨w.ledger, h.past, rfl, rfl⟩

/-- An anchor leads to the state that has it, -/
theorem Coherent.next_rooted (h : Coherent S w) (hs : w.Past S s)
    (hp : s.pendingAnchor = some p) :
    p.nextSequence = p.previousSequence + 1 ∧
      w.Rooted S p.nextSequence (hexToHash p.nextRoot) := by
  obtain ⟨hnext, hsequence, hroot⟩ := (h.past_later hs).1 p hp
  exact ⟨hnext, s, hs, hsequence.symm, by rw [hroot]⟩

/-- The pending anchor leads from a state that some of the calls led to. -/
def State.Follows (S : Setup) (calls : List Call) (s : State) : Prop :=
  ∀ p, s.pendingAnchor = some p → ∃ earlier, earlier <+: calls ∧
    (Machine.run (callStep S.host) newState earlier).sequence = p.previousSequence ∧
    (Machine.run (callStep S.host) newState earlier).root = p.previousRoot

theorem follows_run (S : Setup) (calls : List Call) :
    (Machine.run (callStep S.host) newState calls).Follows S calls := by
  refine Machine.invariant_along ?_ ?_ ?_ calls
  · intro p hp
    cases hp
  · intro calls c _ hs _ p hp
    obtain ⟨earlier, hearlier, hfrom⟩ := hs p hp
    exact ⟨earlier, hearlier.trans (List.prefix_append calls [c]), hfrom⟩
  · rintro calls ⟨pid, action, trace, event⟩ s' _ hstep p hp
    cases event with
    | operate ctx stored op =>
        obtain ⟨_, _, next, _, rfl⟩ := Operation.apply_ok hstep
        cases hp
        exact ⟨calls, List.prefix_append calls _, rfl, rfl⟩
    | confirm sequence root stored =>
        obtain rfl := confirmAnchor_ok hstep
        cases hp

/-- and from a state before it. -/
theorem World.Past.previous_rooted (hs : w.Past S s) (hp : s.pendingAnchor = some p) :
    w.Rooted S p.previousSequence (hexToHash p.previousRoot) := by
  obtain ⟨before, hbefore, rfl⟩ := hs
  obtain ⟨earlier, hearlier, hsequence, hroot⟩ := follows_run S before p hp
  exact ⟨_, ⟨earlier, hearlier.trans hbefore, rfl⟩, hsequence, by rw [hroot]⟩

end Roots

/-! ### Settlements -/

/-- The settlement leads from one state of the ledger to the next. -/
structure Settlement.Leads (S : Setup) (w : World) (settlement : Settlement) : Prop where
  consecutive : settlement.nextSequence = settlement.previousSequence + 1
  previous : w.Rooted S settlement.previousSequence settlement.previousRoot
  next : w.Rooted S settlement.nextSequence settlement.nextRoot

theorem Settlement.Leads.mono {S : Setup} {w w' : World} {settlement : Settlement}
    (h : settlement.Leads S w) (hext : Extends w w') : settlement.Leads S w' :=
  ⟨h.consecutive, h.previous.mono hext, h.next.mono hext⟩

/-- The settlement was drawn up from the anchor of `s` or of an earlier state. -/
structure Settlement.DrawnBy (settlement : Settlement) (s : State) : Prop where
  consecutive : settlement.nextSequence = settlement.previousSequence + 1
  behind : settlement.nextSequence ≤ s.sequence
  current : settlement.nextSequence = s.sequence → settlement.nextRoot = hexToHash s.root ∧
    ∀ p, s.pendingAnchor = some p → settlement.previousRoot = hexToHash p.previousRoot

theorem Settlement.DrawnBy.later {settlement : Settlement} {s s' : State}
    (h : settlement.DrawnBy s) (hl : Later s s') : settlement.DrawnBy s' := by
  refine ⟨h.consecutive, h.behind.trans hl.sequence, ?_⟩
  intro heq
  have hsame : s'.sequence = s.sequence := Nat.le_antisymm (heq ▸ h.behind) hl.sequence
  obtain ⟨hroot, hpending⟩ := hl.same hsame
  obtain ⟨hnext, hprev⟩ := h.current (heq.trans hsame)
  exact ⟨by rw [hroot]; exact hnext, fun p hp => hprev p (hpending p hp)⟩

/-- What a handler is about to sign is a settlement of an anchor the engine had. -/
theorem Coherent.drawn {S : Setup} {w : World} {pid : Nat} {h : Started}
    {settlement : Settlement} {k : Response (.sign settlement) → Running} (hw : Coherent S w)
    (hget : w.handlers[pid]? = some h) (hp : h.process = .call (.sign settlement) k) :
    ∃ s p now payout, w.Past S s ∧ s.pendingAnchor = some p ∧
      settlement = p.settlement S.platform.keccak256 h.action.id payout now := by
  have hobeys := hw.obeys pid h hget
  rw [hp] at hobeys
  obtain ⟨t₀, s, p, now, payout, htrace, _, hpending, rfl⟩ := hobeys.allowed
  refine ⟨s, p, now, payout, ?_, hpending, rfl⟩
  refine hw.recalls pid h hget ⟨.state .settlement, s⟩ ?_
  rw [htrace]
  simp

theorem Coherent.drawnBy {S : Setup} {w : World} {pid : Nat} {h : Started}
    {settlement : Settlement} {k : Response (.sign settlement) → Running} (hw : Coherent S w)
    (hget : w.handlers[pid]? = some h) (hp : h.process = .call (.sign settlement) k) :
    settlement.DrawnBy w.ledger := by
  obtain ⟨s, p, now, payout, hread, hpending, rfl⟩ := hw.drawn hget hp
  obtain ⟨hown, hlater⟩ := hw.past_later hread
  obtain ⟨hnext, hseq, hroot⟩ := hown p hpending
  refine Settlement.DrawnBy.later ⟨hnext, Nat.le_of_eq hseq, fun _ => ⟨?_, ?_⟩⟩ hlater
  · show hexToHash p.nextRoot = _
    rw [hroot]
  · intro p' hp'
    rw [hpending] at hp'
    cases hp'
    rfl

theorem Coherent.leads {S : Setup} {w : World} {pid : Nat} {h : Started}
    {settlement : Settlement} {k : Response (.sign settlement) → Running} (hw : Coherent S w)
    (hget : w.handlers[pid]? = some h) (hp : h.process = .call (.sign settlement) k) :
    settlement.Leads S w := by
  obtain ⟨s, p, now, payout, hread, hpending, rfl⟩ := hw.drawn hget hp
  obtain ⟨hconsecutive, hnext⟩ := hw.next_rooted hread hpending
  exact ⟨hconsecutive, hread.previous_rooted hpending, hnext⟩

/-! ### The link between the ledger and the vault -/

/-- The vault stands at this sequence number and root. -/
def Vault.At (v : Vault) (sequence : Nat) (root : String) : Prop :=
  v.stateSequence = sequence ∧ v.stateRoot = hexToHash root

/-- The vault is where the ledger was last confirmed, or where it waits to be. -/
structure Synchronised (w : World) : Prop where
  settled : w.ledger.pendingAnchor = none → w.vault.At w.ledger.sequence w.ledger.root
  pending : ∀ p, w.ledger.pendingAnchor = some p →
    p.nextSequence = p.previousSequence + 1 ∧ p.nextSequence = w.ledger.sequence ∧
      p.nextRoot = w.ledger.root ∧
      (w.vault.At p.previousSequence p.previousRoot ∨ w.vault.At p.nextSequence p.nextRoot)

/-- The sequence number and the root that `recoverPendingAnchor` compares with the settlement. -/
def Vault.state (v : Vault) : Nat × Hash := (v.stateSequence, v.stateRoot)

/-- The branch of `recoverPendingAnchor` that throws: what it has read of the vault is neither end
of the settlement it was given. -/
def Diverges (settlement : Settlement) (state : Nat × Hash) : Prop :=
  ¬ (state.1 = settlement.previousSequence ∧ state.2 = settlement.previousRoot) ∧
    ¬ (state.1 = settlement.nextSequence ∧ state.2 = settlement.nextRoot)

instance (settlement : Settlement) (state : Nat × Hash) :
    Decidable (Diverges settlement state) :=
  inferInstanceAs (Decidable (¬ _ ∧ ¬ _))

structure Linked (S : Setup) (w : World) : Prop where
  coherent : Coherent S w
  synchronised : Synchronised w
  signed : ∀ settlement ∈ w.signed, settlement.DrawnBy w.ledger
  leads : ∀ settlement ∈ w.signed, settlement.Leads S w
  /-- The settlements executed so far are those of the first anchors, one each. -/
  executed : w.vault.executed.map Settlement.nextSequence = List.range' 1 w.vault.stateSequence

section Link

variable {S : Setup} {w w' : World}

/-- A settlement that the vault executes is that of the pending anchor, and the vault was at its
previous state. -/
theorem Linked.executes (h : Linked S w) {tx : Tx} {settlement : Settlement} {v : Vault}
    (hmem : settlement ∈ w.signed)
    (hv : w.vault.executeSettlement S.config tx true settlement = .ok v) :
    ∃ p, w.ledger.pendingAnchor = some p ∧ w.vault.At p.previousSequence p.previousRoot ∧
      v.At p.nextSequence p.nextRoot := by
  obtain ⟨_, hprev, hnext, _, _, rfl⟩ := executeSettlement_ok hv
  have hdrawn := h.signed settlement hmem
  cases hp : w.ledger.pendingAnchor with
  | none =>
      have hseq := (h.synchronised.settled hp).1
      have := hdrawn.behind
      omega
  | some p =>
      obtain ⟨hpnext, hpseq, hproot, hat | hat⟩ := h.synchronised.pending p hp
      · have hcurrent : settlement.nextSequence = w.ledger.sequence := by
          rw [hnext, hat.1, ← hpseq, hpnext]
        refine ⟨p, rfl, hat, hcurrent.trans hpseq.symm, ?_⟩
        show settlement.nextRoot = _
        rw [(hdrawn.current hcurrent).1, hproot]
      · have hseq := hat.1
        have := hdrawn.behind
        omega

theorem Linked.committed (h : Linked S w) {ctx : Context} {stored : Bool} {op : Operation}
    {s' : State} (hs : op.apply .wrapping S.host ctx stored w.ledger = .ok s')
    (hledger : w'.ledger = s') (hvault : w'.vault = w.vault) : Synchronised w' := by
  obtain ⟨hnone, _, next, _, hs'⟩ := Operation.apply_ok hs
  obtain ⟨hseq, hroot⟩ := h.synchronised.settled hnone
  rw [hs'] at hledger
  refine ⟨?_, ?_⟩
  · intro hn
    rw [hledger] at hn
    cases hn
  · intro p hp
    rw [hledger] at hp ⊢
    rw [hvault]
    cases hp
    exact ⟨rfl, rfl, rfl, Or.inl ⟨hseq, hroot⟩⟩

/-- A confirmation is accepted only once the vault has moved on: the sequence number it was
checked against was the vault's, and the vault does not go back. -/
theorem Linked.confirmed (h : Linked S w) {pid : Nat} {started : Started} {sequence : Nat}
    {root : String} {k : Response (.confirmAnchor sequence root) → Running} {stored : Bool}
    {s' : State} (hget : w.handlers[pid]? = some started)
    (hp : started.process = .call (.confirmAnchor sequence root) k)
    (hs : confirmAnchor sequence root stored w.ledger = .ok s') (hledger : w'.ledger = s')
    (hvault : w'.vault = w.vault) : Synchronised w' := by
  obtain rfl := confirmAnchor_ok hs
  refine ⟨?_, by intro p hpending; rw [hledger] at hpending; cases hpending⟩
  intro _
  rw [hledger, hvault]
  cases hpending : w.ledger.pendingAnchor with
  | none => exact h.synchronised.settled hpending
  | some p =>
      have hmatch : p.nextSequence = sequence := by
        unfold confirmAnchor at hs
        simp only [hpending, bind_eq_ok, rejectIf_eq_ok] at hs
        exact not_not.mp (not_or.mp hs.choose_spec.1).1
      have hobeys := h.coherent.obeys pid started hget
      rw [hp] at hobeys
      obtain ⟨sequenceRaw, _, hread, _, hvalue, _⟩ := hobeys.allowed
      have hreached : sequence ≤ w.vault.stateSequence := by
        rw [← hvalue]
        exact h.coherent.recalls pid started hget _ hread
      obtain ⟨hpnext, hpseq, hproot, hat | hat⟩ := h.synchronised.pending p hpending
      · have := hat.1
        omega
      · exact ⟨hat.1.trans hpseq, by rw [hat.2, hproot]⟩

theorem linked_step {move : Move} (h : Linked S w) (hw : w.step S move = .ok w') :
    Linked S w' := by
  have hcoherent := coherent_step h.coherent hw
  have hlater : ∀ {c : Call}, callStep S.host w.ledger c = .ok w'.ledger →
      ∀ settlement ∈ w.signed, settlement.DrawnBy w'.ledger := by
    intro c hc settlement hmem
    exact (h.signed settlement hmem).later (later_step (Later.refl _) hc)
  have hleads : w'.signed = w.signed → ∀ settlement ∈ w'.signed, settlement.Leads S w' := by
    intro hsigned settlement hmem
    exact (h.leads settlement (hsigned ▸ hmem)).mono (step_extends hw)
  have hsync : w'.ledger = w.ledger → w'.vault.stateSequence = w.vault.stateSequence →
      w'.vault.stateRoot = w.vault.stateRoot → Synchronised w' := by
    intro hledger hseq hroot
    have hat : ∀ sequence root, w'.vault.At sequence root ↔ w.vault.At sequence root := by
      intro sequence root
      unfold Vault.At
      rw [hseq, hroot]
    refine ⟨?_, ?_⟩
    · intro hnone
      rw [hat, hledger]
      rw [hledger] at hnone
      exact h.synchronised.settled hnone
    · intro p hp
      rw [hat, hat, hledger]
      rw [hledger] at hp
      exact h.synchronised.pending p hp
  cases h.coherent.step_changes hw with
  | quiet hledger _ hvault hsigned =>
      refine ⟨hcoherent, hsync hledger (by rw [hvault]) (by rw [hvault]), ?_, hleads hsigned, ?_⟩
      · rw [hledger, hsigned]; exact h.signed
      · rw [hvault]; exact h.executed
  | committed _ _ happly hledger _ hvault hsigned =>
      refine ⟨hcoherent, h.committed happly hledger hvault, ?_, hleads hsigned, ?_⟩
      · rw [hsigned]
        exact hlater (c := ⟨0, ⟨Hash.zero, .other, []⟩, [], .operate _ _ _⟩)
          (by rw [hledger]; exact happly)
      · rw [hvault]; exact h.executed
  | confirmed hget hp happly hledger _ hvault hsigned =>
      refine ⟨hcoherent, h.confirmed hget hp happly hledger hvault, ?_, hleads hsigned, ?_⟩
      · rw [hsigned]
        exact hlater (c := ⟨0, ⟨Hash.zero, .other, []⟩, [], .confirm _ _ _⟩)
          (by rw [hledger]; exact happly)
      · rw [hvault]; exact h.executed
  | signed hget hp hledger _ hvault hsigned =>
      refine ⟨hcoherent, hsync hledger (by rw [hvault]) (by rw [hvault]), ?_, ?_, ?_⟩
      · rw [hledger, hsigned]
        intro settlement hmem
        rcases List.mem_append.mp hmem with hmem | hmem
        · exact h.signed settlement hmem
        · rw [List.mem_singleton.mp hmem]
          exact h.coherent.drawnBy hget hp
      · intro settlement hmem
        rw [hsigned] at hmem
        rcases List.mem_append.mp hmem with hmem | hmem
        · exact (h.leads settlement hmem).mono (step_extends hw)
        · rw [List.mem_singleton.mp hmem]
          exact (h.coherent.leads hget hp).mono (step_extends hw)
      · rw [hvault]; exact h.executed
  | transacted happly hledger _ hsigned =>
      obtain ⟨hseq, hroot, hexecuted, _⟩ := apply_frame happly
      refine ⟨hcoherent, hsync hledger hseq hroot, ?_, hleads hsigned, ?_⟩
      · rw [hledger, hsigned]; exact h.signed
      · rw [hexecuted, hseq]; exact h.executed
  | executed hmem happly hledger _ hsigned =>
      obtain ⟨p, hpending, _, hat⟩ := h.executes hmem happly
      obtain ⟨_, _, hnext, _, _, hv⟩ := executeSettlement_ok happly
      refine ⟨hcoherent, ⟨?_, ?_⟩, ?_, hleads hsigned, ?_⟩
      · intro hnone
        rw [hledger, hpending] at hnone
        cases hnone
      · intro p' hp'
        rw [hledger] at hp' ⊢
        rw [hpending] at hp'
        cases hp'
        obtain ⟨hpnext, hpseq, hproot, _⟩ := h.synchronised.pending p hpending
        exact ⟨hpnext, hpseq, hproot, Or.inr hat⟩
      · rw [hledger, hsigned]; exact h.signed
      · rw [hv]
        show (w.vault.executed ++ [_]).map _ = List.range' 1 _
        rw [List.map_append, h.executed, List.map_singleton, hnext, List.range'_1_concat,
          Nat.add_comm 1]

theorem linked_init : Linked S {} where
  coherent := coherent_init
  synchronised := ⟨fun _ => ⟨rfl, rfl⟩, by intro p hp; cases hp⟩
  signed := by simp
  leads := by simp
  executed := rfl

theorem linked_worldAfter (S : Setup) (moves : List Move) : Linked S (worldAfter S moves) :=
  Machine.invariant (fun _ _ _ h hw => linked_step h hw) linked_init moves

/-- The vault is at a state of the ledger. -/
theorem Linked.vault_rooted (h : Linked S w) :
    w.Rooted S w.vault.stateSequence w.vault.stateRoot := by
  cases hp : w.ledger.pendingAnchor with
  | none =>
      obtain ⟨hsequence, hroot⟩ := h.synchronised.settled hp
      rw [hsequence, hroot]
      exact h.coherent.ledger_rooted
  | some p =>
      obtain ⟨_, _, _, ⟨hsequence, hroot⟩ | ⟨hsequence, hroot⟩⟩ := h.synchronised.pending p hp
      · rw [hsequence, hroot]
        exact h.coherent.past.previous_rooted hp
      · rw [hsequence, hroot]
        exact (h.coherent.next_rooted h.coherent.past hp).2

/-- It is at most one behind. -/
theorem Linked.sequence_le (h : Linked S w) :
    w.ledger.sequence ≤ w.vault.stateSequence + 1 := by
  cases hp : w.ledger.pendingAnchor with
  | none => exact Nat.le_succ_of_le (Nat.le_of_eq (h.synchronised.settled hp).1.symm)
  | some p =>
      obtain ⟨hnext, hsequence, _, hat | hat⟩ := h.synchronised.pending p hp
      · rw [hat.1, ← hsequence, hnext]
      · rw [hat.1, hsequence]
        exact Nat.le_succ _

/-- Until the vault has moved past a settlement, it stands at one of its ends. -/
theorem Linked.not_diverges (h : Linked S w) {settlement : Settlement}
    (hmem : settlement ∈ w.signed) (hle : w.vault.stateSequence ≤ settlement.nextSequence) :
    ¬ Diverges settlement w.vault.state := by
  rintro ⟨hprevious, hnext⟩
  have hleads := h.leads settlement hmem
  have hreached := (hleads.next.behind h.coherent).trans h.sequence_le
  have hat : w.vault.stateSequence = settlement.previousSequence ∨
      w.vault.stateSequence = settlement.nextSequence := by
    have := hleads.consecutive
    omega
  rcases hat with hsequence | hsequence
  · have hvault := h.vault_rooted
    rw [hsequence] at hvault
    exact hprevious ⟨hsequence, hvault.unique hleads.previous⟩
  · have hvault := h.vault_rooted
    rw [hsequence] at hvault
    exact hnext ⟨hsequence, hvault.unique hleads.next⟩

end Link

/-- After the moves the ledger and the vault are in step, and so was every settlement that was
executed on the way. -/
structure InStep (S : Setup) (moves : List Move) : Prop where
  /-- The vault is where the ledger was last confirmed, or at one end of the pending anchor. -/
  synchronised : Synchronised (worldAfter S moves)
  /-- A settlement that executes, however late, takes the vault over the pending anchor. -/
  advances : ∀ c ∈ Machine.commits (World.step S) {} moves, ∀ tx settlement,
    c.2 = .execute tx settlement → ∃ p w', c.1.step S c.2 = .ok w' ∧
      c.1.ledger.pendingAnchor = some p ∧ p.nextSequence = p.previousSequence + 1 ∧
      c.1.vault.At p.previousSequence p.previousRoot ∧ w'.vault.At p.nextSequence p.nextRoot
  /-- The executed settlements are those of the anchors 1, 2, …, one each. -/
  once : (worldAfter S moves).vault.executed.map Settlement.nextSequence =
    List.range' 1 (worldAfter S moves).vault.stateSequence
  /-- Whatever was signed, recovered or not, finds the vault at one of its ends until the vault has
  moved past it. -/
  met : ∀ settlement ∈ (worldAfter S moves).signed,
    (worldAfter S moves).vault.stateSequence ≤ settlement.nextSequence →
      ¬ Diverges settlement (worldAfter S moves).vault.state

/-- **Ledger and vault are in step** after every run. -/
theorem inStep_worldAfter (S : Setup) (moves : List Move) : InStep S moves := by
  have hlinked := linked_worldAfter S moves
  refine ⟨hlinked.synchronised, ?_, hlinked.executed,
    fun settlement hmem hle => hlinked.not_diverges hmem hle⟩
  intro c hc tx settlement hmove
  obtain ⟨before, after, w', _, hworld, hstep⟩ := Machine.exists_prefix_of_mem_commits hc
  have hbefore : Linked S c.1 := by rw [hworld]; exact linked_worldAfter S before
  obtain ⟨hmem, v, hv, hw'⟩ := execute_ok (by rw [← hmove]; exact hstep)
  obtain ⟨p, hp, hat, hat'⟩ := hbefore.executes hmem hv
  refine ⟨p, w', hstep, hp, (hbefore.synchronised.pending p hp).1, hat, ?_⟩
  rw [hw']
  exact hat'

end QuietLine
