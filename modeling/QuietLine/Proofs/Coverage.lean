/-
The vault has what the ledger owes.

The ledger counts a payout when it is committed, the vault when the settlement is
executed, and a deposit the other way round.  What ties the two is that a payout the
vault executes is one the ledger has committed, one each.  That needs more than the
payouts being right: a handler that has committed a fund movement must find its own
anchor when it comes to read it, or it would sign the payout under another's number.
It does, since until it has signed nobody can settle the anchor (`Movements.awaited`).
-/
import QuietLine.Proofs.Credits
import QuietLine.Proofs.Executable
import QuietLine.Proofs.Solvency

namespace QuietLine

open Outcome

/-! ### What is owed and what is paid -/

/-- What an operation lets leave the vault in an asset. -/
def Operation.debit (name : String) (op : Operation) : Nat :=
  if name = "FXRP" then op.authorised.2 else op.authorised.1

def Event.debit (name : String) : Event → Nat
  | .operate _ _ op => op.debit name
  | .confirm .. => 0

/-- What the commits so far let leave the vault in an asset. -/
def World.promised (S : Setup) (w : World) (name : String) : Nat :=
  ((w.commits S).map fun c => c.2.event.debit name).sum

/-- What `executeSettlement` transfers in an asset. -/
def Settlement.transfer (cfg : Config) (name : String) (settlement : Settlement) : Nat :=
  if settlement.settlementType ≠ .checkpoint ∧ settlement.token = cfg.tokenOf name then
    settlement.amount
  else 0

/-- What the vault has paid out in an asset. -/
def Vault.paid (v : Vault) (cfg : Config) (name : String) : Nat :=
  (v.executed.map (Settlement.transfer cfg name)).sum

/-- What the ledger owes in an asset and has not lent out. -/
def State.owed (s : State) (name : String) : Int :=
  if name = "FXRP" then s.claimsFXRP else s.claimsUSDT0 - s.activeDebt.toNat

/-- An operation moves what is owed by what it credits and what it lets out. -/
theorem Operation.delta_eq (op : Operation) :
    op.usdt0Delta = op.credit "USDT0" - op.debit "USDT0" ∧
      op.fxrpDelta = op.credit "FXRP" - op.debit "FXRP" := by
  cases op with
  | deposit owner asset amount id =>
      simp [Operation.usdt0Delta, Operation.fxrpDelta, Operation.credit, Operation.debit,
        Operation.authorised]
  | withdraw owner asset amount id n =>
      by_cases hu : asset = "USDT0"
      · subst hu
        simp [Operation.usdt0Delta, Operation.fxrpDelta, Operation.credit, Operation.debit,
          Operation.authorised]
      · by_cases hf : asset = "FXRP"
        · subst hf
          simp [Operation.usdt0Delta, Operation.fxrpDelta, Operation.credit, Operation.debit,
            Operation.authorised]
        · simp [Operation.usdt0Delta, Operation.fxrpDelta, Operation.credit, Operation.debit,
            Operation.authorised, hu, hf]
  | _ => simp [Operation.usdt0Delta, Operation.fxrpDelta, Operation.credit, Operation.debit,
      Operation.authorised]

/-! ### The runs -/

/-- The call of the engine that a move makes. -/
def World.asks (w : World) : Move → Option Event
  | .advance pid a => w.handlers[pid]?.bind fun h =>
      match h.process with
      | .call (.mutate op) _ => some (.operate a.ctx a.stored op)
      | .call (.confirmAnchor sequence root) _ => some (.confirm sequence root a.stored)
      | _ => none
  | _ => none

/-- What is asked of the moves of a run: no handler reads another's fund movement, instructions are
delivered only once they were sent, and an acceptance brings a fresh loan id and a deposit keeps the
claims within a `uint64`. -/
structure Serviced (S : Setup) (w : World) (move : Move) : Prop where
  undisturbed : Undisturbed S w move = true
  delivered : Delivered S w move = true
  guarded : ∀ e ∈ w.asks move, Guarded w.ledger e

theorem World.asks_mutate {w : World} {pid : Nat} {a : Answer} {h : Started} {op : Operation}
    {k : Response (.mutate op) → Running} (hget : w.handlers[pid]? = some h)
    (hp : h.process = .call (.mutate op) k) :
    w.asks (.advance pid a) = some (.operate a.ctx a.stored op) := by
  simp only [World.asks, hget, Option.bind_some, hp]

/-! ### A handler finds its own anchor -/

/-- What a handler has done since it committed `c` and up to its read of the state for the
settlement. -/
abbrev Committed (c : Call) (op : Operation) : Trace := ⟨.mutate op, .ok ()⟩ :: c.trace

/-- Where the fund movements of a run stand. -/
structure Movements (S : Setup) (w : World) : Prop where
  /-- An operation that a handler was told is done is one it has committed. -/
  told : ∀ (pid : Nat) (h : Started) (op : Operation) (t : Trace), w.handlers[pid]? = some h →
    (⟨.mutate op, .ok ()⟩ :: t : Trace) <:+ h.trace → ∃ c ∈ w.commits S, c.2.Operates op ∧
      c.2.pid = pid ∧ c.2.action = h.action ∧ c.2.trace = t
  /-- The anchor of a fund movement is pending until the handler that committed it has read it. -/
  awaited : ∀ c ∈ w.commits S, ∀ op, c.2.Operates op → op.kind.movesFunds = true →
    ∀ h, w.handlers[c.2.pid]? = some h → h.trace = Committed c.2 op →
      ∃ p, w.ledger.pendingAnchor = some p ∧ p.nextSequence = c.1.sequence + 1
  /-- So what it reads is its own, -/
  found : ∀ (pid : Nat) (h : Started) (s : State) (op : Operation) (t : Trace),
    w.handlers[pid]? = some h →
    (⟨.state .settlement, s⟩ :: ⟨.mutate op, .ok ()⟩ :: t : Trace) <:+ h.trace →
    op.kind.movesFunds = true → ∀ p, s.pendingAnchor = some p →
      ∃ c ∈ w.commits S, c.2.Operates op ∧ p.nextSequence = c.1.sequence + 1
  /-- and nobody else reads it. -/
  reads : ∀ (pid : Nat) (h : Started) (s : State) (t : Trace), w.handlers[pid]? = some h →
    (⟨.state .settlement, s⟩ :: t : Trace) <:+ h.trace → ∀ p, s.pendingAnchor = some p →
      p.kind.movesFunds = true → ∃ c ∈ w.commits S, ∃ op, c.2.Operates op ∧ c.2.pid = pid ∧
        t = Committed c.2 op ∧ p.nextSequence = c.1.sequence + 1
  /-- The settlement of a fund movement is signed after that read, -/
  signed : ∀ settlement ∈ w.signed, ∀ c ∈ w.commits S, ∀ op, c.2.Operates op →
    op.kind.movesFunds = true → settlement.nextSequence = c.1.sequence + 1 →
      ∃ h s, w.handlers[c.2.pid]? = some h ∧
        (⟨.state .settlement, s⟩ :: Committed c.2 op : Trace) <:+ h.trace
  /-- and what pays tokens out is the settlement of a fund movement. -/
  pays : ∀ settlement ∈ w.signed, settlement.settlementType ≠ .checkpoint →
    ∃ c ∈ w.commits S, ∃ op, c.2.Operates op ∧ op.kind.movesFunds = true ∧
      settlement.nextSequence = c.1.sequence + 1

section Movements

variable {S : Setup} {w w' : World} {pid : Nat} {a : Answer} {move : Move}

/-- A move commits nothing, or the call it makes. -/
theorem Coherent.step_commits (h : Coherent S w) (hw : w.step S move = .ok w') :
    (w'.ledger = w.ledger ∧ w'.commits S = w.commits S) ∨
      ∃ c, callStep S.host w.ledger c = .ok w'.ledger ∧
        w'.commits S = w.commits S ++ [(w.ledger, c)] ∧ w.asks move = some c.event := by
  cases move with
  | receive action =>
      cases hw
      exact Or.inl ⟨rfl, commits_congr rfl⟩
  | transact tx call =>
      obtain ⟨v, _, rfl⟩ := transact_ok hw
      exact Or.inl ⟨rfl, commits_congr rfl⟩
  | execute tx settlement =>
      obtain ⟨_, v, _, rfl⟩ := execute_ok hw
      exact Or.inl ⟨rfl, commits_congr rfl⟩
  | restart =>
      cases hw
      exact Or.inl ⟨h.stored, commits_congr rfl⟩
  | advance pid a =>
      obtain ⟨started, r, k, hget, _, hp, hw'⟩ := advance_ok hw
      have hcall : ∀ c : Call, (w.respond S pid started a r).1 = (w.call S c).1 →
          w.asks (.advance pid a) = some c.event →
          (w'.ledger = w.ledger ∧ w'.commits S = w.commits S) ∨
            ∃ c, callStep S.host w.ledger c = .ok w'.ledger ∧
              w'.commits S = w.commits S ++ [(w.ledger, c)] ∧
              w.asks (.advance pid a) = some c.event := by
        intro c hc hasks
        rw [hc] at hw'
        rcases call_cases S c w with ⟨s', hs', hsame⟩ | ⟨cause, hs', hsame⟩
        · rw [hsame] at hw'
          refine Or.inr ⟨c, by rw [hw']; exact hs', ?_, hasks⟩
          rw [h.commits_call (c := c) (by rw [hw']), Machine.commits_single_ok hs']
        · rw [hsame] at hw'
          refine Or.inl ⟨by rw [hw'], ?_⟩
          rw [h.commits_call (c := c) (by rw [hw']), Machine.commits_single_error hs',
            List.append_nil]
      cases r with
      | mutate op =>
          exact hcall _ rfl (World.asks_mutate hget hp)
      | confirmAnchor sequence root =>
          refine hcall _ rfl ?_
          simp only [World.asks, hget, Option.bind_some, hp]
      | sign settlement =>
          refine Or.inl ?_
          rw [hw']
          unfold World.respond
          dsimp only
          by_cases hs : a.signing = .refused
          · rw [if_pos hs]
            exact ⟨rfl, commits_congr rfl⟩
          · rw [if_neg hs]
            exact ⟨rfl, commits_congr rfl⟩
      | _ =>
          rw [hw']
          exact Or.inl ⟨rfl, commits_congr rfl⟩

/-- An operation that a handler is told is done is committed. -/
theorem Coherent.committed_of_told (h : Coherent S w) {started : Started} {op : Operation}
    {k : Response (.mutate op) → Running} (hget : w.handlers[pid]? = some started)
    (hp : started.process = .call (.mutate op) k)
    (hw : w.step S (.advance pid a) = .ok w')
    (hdone : (w.respond S pid started a (.mutate op)).2 = .ok ()) :
    ∃ c ∈ w'.commits S, c.2.Operates op ∧ c.2.pid = pid ∧ c.2.action = started.action ∧
      c.2.trace = started.trace := by
  obtain ⟨started', r, k', hget', _, hp', hw'⟩ := advance_ok hw
  rw [hget] at hget'
  obtain rfl := Option.some.inj hget'
  rw [hp] at hp'
  cases hp'
  have hcalled : w.respond S pid started a (.mutate op) = w.call S
    { pid, action := started.action, trace := started.trace
      event := .operate a.ctx a.stored op } := rfl
  rcases call_cases S { pid, action := started.action, trace := started.trace
                        event := .operate a.ctx a.stored op } w with
    ⟨s', hs', hsame⟩ | ⟨cause, _, hsame⟩
  · rw [hcalled, hsame] at hw'
    refine ⟨(w.ledger, ⟨pid, started.action, started.trace, .operate a.ctx a.stored op⟩), ?_,
      ⟨a.ctx, a.stored, rfl⟩, rfl, rfl, rfl⟩
    have hcalls : w'.calls = w.calls ++
        [⟨pid, started.action, started.trace, .operate a.ctx a.stored op⟩] := by rw [hw']
    rw [h.commits_call hcalls, Machine.commits_single_ok hs']
    exact List.mem_append_right _ List.mem_cons_self
  · rw [hcalled, hsame] at hdone
    cases hdone

/-- A handler whose trace ends with an operation it committed before has not moved. -/
theorem Coherent.unmoved (h : Coherent S w) (hw : w.step S move = .ok w') {c : State × Call}
    {op : Operation} (hc : c ∈ w.commits S) (hop : c.2.Operates op) {started : Started}
    (hget' : w'.handlers[c.2.pid]? = some started) (htrace : started.trace = Committed c.2 op) :
    w.handlers[c.2.pid]? = some started := by
  rcases step_handlers hw hget' with ⟨s, hget, rfl⟩ | ⟨_, hnew, _⟩ |
    ⟨a, s, r, k, rfl, hget, _, rfl⟩
  · exact hget
  · rw [hnew] at htrace
    cases htrace
  · -- it would have committed the operation before it asked for it
    obtain ⟨ctx, stored, hevent⟩ := hop
    obtain ⟨_, _, s₁, hs₁, _, hsuffix⟩ := h.commits c hc ctx stored op hevent
    rw [hget] at hs₁
    obtain rfl := Option.some.inj hs₁
    have hlen := hsuffix.length_le
    have hlen' := congrArg List.length htrace
    simp only [Started.answer, List.length_cons] at hlen hlen'
    omega

/-- A confirmation is accepted only of an anchor the vault has reached. -/
theorem Linked.reached (h : Linked S w) {started : Started} {sequence : Nat} {root : String}
    {k : Response (.confirmAnchor sequence root) → Running} {stored : Bool} {s' : State}
    (hget : w.handlers[pid]? = some started)
    (hp : started.process = .call (.confirmAnchor sequence root) k)
    (hs : confirmAnchor sequence root stored w.ledger = .ok s') {p : PendingAnchor}
    (hpending : w.ledger.pendingAnchor = some p) : p.nextSequence ≤ w.vault.stateSequence := by
  have hmatch : p.nextSequence = sequence := by
    unfold confirmAnchor at hs
    simp only [hpending, bind_eq_ok, rejectIf_eq_ok] at hs
    exact not_not.mp (not_or.mp hs.choose_spec.1).1
  have hobeys := h.coherent.obeys pid started hget
  rw [hp] at hobeys
  obtain ⟨sequenceRaw, _, hread, _, hvalue, _⟩ := hobeys.allowed
  rw [hmatch, ← hvalue]
  exact h.coherent.recalls pid started hget _ hread

/-- The handler that committed last, when it reads the anchor of a fund movement. -/
theorem Linked.installer_read (h : Linked S w) {started : Started} {k : State → Running}
    (hget : w.handlers[pid]? = some started)
    (hp : started.process = .call (.state .settlement) k)
    (hguard : Undisturbed S w (.advance pid a) = true) {p : PendingAnchor}
    (hpending : w.ledger.pendingAnchor = some p) (hfunds : p.kind.movesFunds = true) :
    ∃ c ∈ w.commits S, ∃ op, c.2.Operates op ∧ c.2.pid = pid ∧
      started.trace = Committed c.2 op ∧ p.nextSequence = c.1.sequence + 1 := by
  have hinstaller : w.installer S = some pid := by
    have hsettles : started.settles = true := by
      unfold Started.settles
      rw [hp]
    simpa [Undisturbed, hget, hsettles, hpending, hfunds] using hguard
  have hrun := h.coherent.ledger
  rw [hrun] at hpending
  obtain ⟨c, op, hlast, hop, _, hseq⟩ := pending_last S.host w.calls hpending
  replace hlast : (w.commits S).getLast? = some c := hlast
  have hpid : c.2.pid = pid := by
    unfold World.installer at hinstaller
    rw [hlast] at hinstaller
    exact Option.some.inj hinstaller
  have hc : c ∈ w.commits S := List.mem_of_getLast? hlast
  exact ⟨c, hc, op, hop, hpid, (h.coherent.trace_of_installer hget hp hc hop hpid).2, hseq⟩

variable (h : Movements S w) (hlinked : Linked S w) (hw : w.step S move = .ok w')

include h hlinked hw

theorem Movements.told_step {h' : Started} {op : Operation} {t : Trace}
    (hget' : w'.handlers[pid]? = some h') (hsuffix : (⟨.mutate op, .ok ()⟩ :: t : Trace) <:+ h'.trace) :
    ∃ c ∈ w'.commits S, c.2.Operates op ∧ c.2.pid = pid ∧ c.2.action = h'.action ∧
      c.2.trace = t := by
  have hchanges := hlinked.coherent.step_changes hw
  have hlonger := hchanges.commits_prefix.subset
  rcases step_handlers hw hget' with ⟨started, hget, rfl⟩ | ⟨_, hnew, _⟩ |
    ⟨a, started, r, k, rfl, hget, hp, rfl⟩
  · obtain ⟨c, hc, hrest⟩ := h.told pid h' op t hget hsuffix
    exact ⟨c, hlonger hc, hrest⟩
  · rw [hnew] at hsuffix
    simp at hsuffix
  · rcases List.suffix_cons_iff.mp hsuffix with heq | hold
    · -- the handler has just been told
      obtain ⟨hexchange, rfl⟩ := List.cons.inj heq
      cases r with
      | mutate op' =>
          obtain ⟨hrequest, hanswer⟩ := Process.Exchange.mk.inj hexchange
          cases hrequest
          exact hlinked.coherent.committed_of_told hget hp hw (eq_of_heq hanswer).symm
      | _ => cases hexchange
    · obtain ⟨c, hc, hrest⟩ := h.told pid started op t hget hold
      exact ⟨c, hlonger hc, hrest⟩

/-- Nobody settles the anchor of a fund movement before the handler has read it. -/
theorem Movements.awaited_step (hexecuted : w.vault.executed ⊆ w.signed) {c : State × Call}
    {op : Operation} (hc : c ∈ w'.commits S) (hop : c.2.Operates op)
    (hfunds : op.kind.movesFunds = true) {h' : Started}
    (hget' : w'.handlers[c.2.pid]? = some h') (htrace : h'.trace = Committed c.2 op) :
    ∃ p, w'.ledger.pendingAnchor = some p ∧ p.nextSequence = c.1.sequence + 1 := by
  have hold : c ∈ w.commits S →
      ∃ p, w.ledger.pendingAnchor = some p ∧ p.nextSequence = c.1.sequence + 1 :=
    fun hc => h.awaited c hc op hop hfunds h'
      (hlinked.coherent.unmoved hw hc hop hget' htrace) htrace
  cases hlinked.coherent.step_changes hw with
  | quiet hledger hcommits | transacted _ hledger hcommits | executed _ _ hledger hcommits
  | signed _ _ hledger hcommits =>
      rw [hledger]
      rw [hcommits] at hc
      exact hold hc
  | committed hget hp happly hledger hcommits =>
      obtain ⟨hnone, _, next, _, rfl⟩ := Operation.apply_ok happly
      rw [hcommits] at hc
      rcases List.mem_append.mp hc with hc | hc
      · obtain ⟨p, hpending, _⟩ := hold hc
        rw [hnone] at hpending
        cases hpending
      · obtain rfl := List.mem_singleton.mp hc
        rw [hledger]
        exact ⟨_, rfl, rfl⟩
  | confirmed hget hp happly hledger hcommits =>
      rw [hcommits] at hc
      rcases List.mem_append.mp hc with hc | hc
      · -- the vault would have executed its settlement, which nobody has signed
        obtain ⟨p, hpending, hseq⟩ := hold hc
        have hreached := hlinked.reached hget hp happly hpending
        have hmem : p.nextSequence ∈ w.vault.executed.map Settlement.nextSequence := by
          rw [hlinked.executed, List.mem_range'_1]
          omega
        obtain ⟨settlement, hsettlement, hnumber⟩ := List.mem_map.mp hmem
        obtain ⟨started, s, hstarted, hsuffix⟩ := h.signed settlement (hexecuted hsettlement) c hc
          op hop hfunds (hnumber.trans hseq)
        rw [hlinked.coherent.unmoved hw hc hop hget' htrace] at hstarted
        obtain rfl := Option.some.inj hstarted
        have hlen := hsuffix.length_le
        rw [htrace, List.length_cons] at hlen
        omega
      · obtain rfl := List.mem_singleton.mp hc
        obtain ⟨_, _, hevent⟩ := hop
        cases hevent

theorem Movements.found_step {h' : Started} {s : State} {op : Operation} {t : Trace}
    (hget' : w'.handlers[pid]? = some h')
    (hsuffix : (⟨.state .settlement, s⟩ :: ⟨.mutate op, .ok ()⟩ :: t : Trace) <:+ h'.trace)
    (hfunds : op.kind.movesFunds = true) {p : PendingAnchor} (hpending : s.pendingAnchor = some p) :
    ∃ c ∈ w'.commits S, c.2.Operates op ∧ p.nextSequence = c.1.sequence + 1 := by
  have hchanges := hlinked.coherent.step_changes hw
  have hlonger := hchanges.commits_prefix.subset
  rcases step_handlers hw hget' with ⟨started, hget, rfl⟩ | ⟨_, hnew, _⟩ |
    ⟨a, started, r, k, rfl, hget, hp, rfl⟩
  · obtain ⟨c, hc, hrest⟩ := h.found pid h' s op t hget hsuffix hfunds p hpending
    exact ⟨c, hlonger hc, hrest⟩
  · rw [hnew] at hsuffix
    simp at hsuffix
  · rcases List.suffix_cons_iff.mp hsuffix with heq | hold
    · -- the handler reads the state its own commit led to
      obtain ⟨hexchange, htrace⟩ := List.cons.inj heq
      cases r with
      | state site =>
          obtain ⟨hrequest, hanswer⟩ := Process.Exchange.mk.inj hexchange
          cases hrequest
          obtain rfl := eq_of_heq hanswer
          obtain ⟨c, hc, hop, rfl, _, rfl⟩ := h.told pid started op t hget
            (by rw [htrace])
          obtain ⟨p', hpending', hseq⟩ := h.awaited c hc op hop hfunds started hget htrace.symm
          replace hpending : w.ledger.pendingAnchor = some p := hpending
          rw [hpending'] at hpending
          obtain rfl := Option.some.inj hpending
          exact ⟨c, hlonger hc, hop, hseq⟩
      | _ => cases hexchange
    · obtain ⟨c, hc, hrest⟩ := h.found pid started s op t hget hold hfunds p hpending
      exact ⟨c, hlonger hc, hrest⟩

theorem Movements.reads_step (hguard : Undisturbed S w move = true) {h' : Started} {s : State}
    {t : Trace} (hget' : w'.handlers[pid]? = some h')
    (hsuffix : (⟨.state .settlement, s⟩ :: t : Trace) <:+ h'.trace) {p : PendingAnchor}
    (hpending : s.pendingAnchor = some p) (hfunds : p.kind.movesFunds = true) :
    ∃ c ∈ w'.commits S, ∃ op, c.2.Operates op ∧ c.2.pid = pid ∧ t = Committed c.2 op ∧
      p.nextSequence = c.1.sequence + 1 := by
  have hchanges := hlinked.coherent.step_changes hw
  have hlonger := hchanges.commits_prefix.subset
  rcases step_handlers hw hget' with ⟨started, hget, rfl⟩ | ⟨_, hnew, _⟩ |
    ⟨a, started, r, k, rfl, hget, hp, rfl⟩
  · obtain ⟨c, hc, hrest⟩ := h.reads pid h' s t hget hsuffix p hpending hfunds
    exact ⟨c, hlonger hc, hrest⟩
  · rw [hnew] at hsuffix
    simp at hsuffix
  · rcases List.suffix_cons_iff.mp hsuffix with heq | hold
    · cases heq
      obtain ⟨c, hc, hrest⟩ := hlinked.installer_read hget hp hguard hpending hfunds
      exact ⟨c, hlonger hc, hrest⟩
    · obtain ⟨c, hc, hrest⟩ := h.reads pid started s t hget hold p hpending hfunds
      exact ⟨c, hlonger hc, hrest⟩

omit hw in
/-- What a handler has read when it signs. -/
theorem Movements.signs {started : Started} {settlement : Settlement}
    {k : Response (.sign settlement) → Running} (hget : w.handlers[pid]? = some started)
    (hp : started.process = .call (.sign settlement) k) :
    (∀ c ∈ w.commits S, ∀ op, c.2.Operates op → op.kind.movesFunds = true →
      settlement.nextSequence = c.1.sequence + 1 → c.2.pid = pid ∧
        ∃ s, (⟨.state .settlement, s⟩ :: Committed c.2 op : Trace) <:+ started.trace) ∧
    (settlement.settlementType ≠ .checkpoint → ∃ c ∈ w.commits S, ∃ op, c.2.Operates op ∧
      op.kind.movesFunds = true ∧ settlement.nextSequence = c.1.sequence + 1) := by
  have hobeys := hlinked.coherent.obeys pid started hget
  rw [hp] at hobeys
  obtain ⟨t, s, p, now, payout, htrace, hanchors, hpending, rfl⟩ := hobeys.allowed
  have hsuffix : (⟨.state .settlement, s⟩ :: t : Trace) <:+ started.trace := by
    rw [htrace]
    exact List.suffix_cons _ _
  constructor
  · intro c hc op hop hfunds hseq
    have hpast : w.Past S s :=
      hlinked.coherent.recalls pid started hget ⟨.state .settlement, s⟩
        (hsuffix.subset List.mem_cons_self)
    replace hseq : p.nextSequence = c.1.sequence + 1 := hseq
    obtain ⟨c₁, hc₁, op₁, hop₁, hkind, hseq₁⟩ := hpast.commit hpending
    obtain rfl := commits_by_sequence hc₁ hc hop₁ hop (by omega)
    obtain rfl := hop.unique hop₁
    obtain ⟨c₂, hc₂, op₂, hop₂, hpid, ht, hseq₂⟩ :=
      h.reads pid started s t hget hsuffix p hpending (by rw [← hkind]; exact hfunds)
    obtain rfl := commits_by_sequence hc₂ hc hop₂ hop (by omega)
    obtain rfl := hop₂.unique hop
    rw [ht] at hsuffix
    exact ⟨hpid, s, hsuffix⟩
  · intro htype
    replace htype : payout.settlementType ≠ .checkpoint := htype
    cases hanchors with
    | recovered found recoverable => exact absurd rfl htype
    | @own t op _ untouched grounds =>
        have hfunds : op.kind.movesFunds = true := by
          have howes := grounds.owes
          cases op with
          | acceptQuote | withdraw | withdrawFromMandate => rfl
          | _ => exact absurd howes htype
        obtain ⟨c, hc, hop, hseq⟩ := h.found pid started s op t hget hsuffix hfunds p hpending
        exact ⟨c, hc, op, hop, hfunds, hseq⟩

/-- What was signed before a move, and what is signed by it. -/
theorem Movements.signed_step {settlement : Settlement} (hmem : settlement ∈ w'.signed)
    {c : State × Call} (hc : c ∈ w'.commits S) {op : Operation} (hop : c.2.Operates op)
    (hfunds : op.kind.movesFunds = true) (hseq : settlement.nextSequence = c.1.sequence + 1) :
    ∃ h s, w'.handlers[c.2.pid]? = some h ∧
      (⟨.state .settlement, s⟩ :: Committed c.2 op : Trace) <:+ h.trace := by
  have hext := step_extends hw
  have hold : settlement ∈ w.signed → c ∈ w.commits S → ∃ h s,
      w'.handlers[c.2.pid]? = some h ∧
        (⟨.state .settlement, s⟩ :: Committed c.2 op : Trace) <:+ h.trace := by
    intro hmem hc
    obtain ⟨started, s, hget, hsuffix⟩ := h.signed settlement hmem c hc op hop hfunds hseq
    obtain ⟨h', hget', _, htrace⟩ := hext.handlers _ started hget
    exact ⟨h', s, hget', hsuffix.trans htrace⟩
  -- nothing has been signed for an anchor that is yet to come
  have hnew : settlement ∈ w.signed → c.1.sequence ≠ w.ledger.sequence := by
    intro hmem heq
    have hbehind := (hlinked.signed settlement hmem).behind
    omega
  cases hlinked.coherent.step_changes hw with
  | quiet _ hcommits _ hsigned | transacted _ _ hcommits hsigned
  | executed _ _ _ hcommits hsigned =>
      rw [hsigned] at hmem
      rw [hcommits] at hc
      exact hold hmem hc
  | committed _ _ _ _ hcommits _ hsigned | confirmed _ _ _ _ hcommits _ hsigned =>
      rw [hsigned] at hmem
      rw [hcommits] at hc
      rcases List.mem_append.mp hc with hc | hc
      · exact hold hmem hc
      · rw [List.mem_singleton.mp hc] at hnew
        exact absurd rfl (hnew hmem)
  | signed hget hp _ hcommits _ hsigned =>
      rw [hsigned] at hmem
      rw [hcommits] at hc
      rcases List.mem_append.mp hmem with hmem | hmem
      · exact hold hmem hc
      · obtain rfl := List.mem_singleton.mp hmem
        obtain ⟨rfl, s, hsuffix⟩ := (h.signs hlinked hget hp).1 c hc op hop hfunds hseq
        obtain ⟨h', hget', _, htrace⟩ := hext.handlers _ _ hget
        exact ⟨h', s, hget', hsuffix.trans htrace⟩

theorem Movements.pays_step {settlement : Settlement} (hmem : settlement ∈ w'.signed)
    (htype : settlement.settlementType ≠ .checkpoint) :
    ∃ c ∈ w'.commits S, ∃ op, c.2.Operates op ∧ op.kind.movesFunds = true ∧
      settlement.nextSequence = c.1.sequence + 1 := by
  have hchanges := hlinked.coherent.step_changes hw
  have hlonger := hchanges.commits_prefix.subset
  have hold : settlement ∈ w.signed → ∃ c ∈ w'.commits S, ∃ op, c.2.Operates op ∧
      op.kind.movesFunds = true ∧ settlement.nextSequence = c.1.sequence + 1 := by
    intro hmem
    obtain ⟨c, hc, hrest⟩ := h.pays settlement hmem htype
    exact ⟨c, hlonger hc, hrest⟩
  cases hlinked.coherent.step_changes hw with
  | quiet _ _ _ hsigned | transacted _ _ _ hsigned | executed _ _ _ _ hsigned
  | committed _ _ _ _ _ _ hsigned | confirmed _ _ _ _ _ _ hsigned =>
      rw [hsigned] at hmem
      exact hold hmem
  | signed hget hp _ _ _ hsigned =>
      rw [hsigned] at hmem
      rcases List.mem_append.mp hmem with hmem | hmem
      · exact hold hmem
      · obtain rfl := List.mem_singleton.mp hmem
        obtain ⟨c, hc, hrest⟩ := (h.signs hlinked hget hp).2 htype
        exact ⟨c, hlonger hc, hrest⟩

theorem movements_step (hguard : Undisturbed S w move = true)
    (hexecuted : w.vault.executed ⊆ w.signed) : Movements S w' where
  told _ _ _ _ hget hsuffix := h.told_step hlinked hw hget hsuffix
  awaited _ hc _ hop hfunds _ hget htrace :=
    h.awaited_step hlinked hw hexecuted hc hop hfunds hget htrace
  found _ _ _ _ _ hget hsuffix hfunds _ hpending :=
    h.found_step hlinked hw hget hsuffix hfunds hpending
  reads _ _ _ _ hget hsuffix _ hpending hfunds :=
    h.reads_step hlinked hw hguard hget hsuffix hpending hfunds
  signed _ hmem _ hc _ hop hfunds hseq := h.signed_step hlinked hw hmem hc hop hfunds hseq
  pays _ hmem htype := h.pays_step hlinked hw hmem htype

omit h hlinked hw in
theorem movements_init : Movements S {} where
  told := by simp
  awaited := by simp
  found := by simp
  reads := by simp
  signed := by simp
  pays := by simp

end Movements

/-! ### The books of both sides -/

/-- The assets of the ledger. -/
def assetNames : List String := ["USDT0", "FXRP"]

/-- What serviced runs keep. -/
structure Covering (S : Setup) (w : World) : Prop where
  attributed : Attributed S w
  kept : PayoutsKept S w
  movements : Movements S w
  executed : w.vault.executed ⊆ w.signed
  sound : Sound w.ledger
  books : ∀ name ∈ assetNames,
    w.ledger.owed name + w.promised S name = w.credited S name

section Covering

variable {S : Setup} {w w' : World} {move : Move}

/-- A committed call moves what is owed by what it credits and what it lets out. -/
theorem Sound.call {host : Host} {s s' : State} {c : Call} (h : Sound s)
    (hguard : Guarded s c.event) (hs : callStep host s c = .ok s') :
    Sound s' ∧ ∀ name ∈ assetNames,
      s'.owed name + c.event.debit name = s.owed name + c.event.credit name := by
  obtain ⟨pid, action, trace, event⟩ := c
  have hsound := sound_step s event s' h hguard hs
  refine ⟨hsound, ?_⟩
  cases event with
  | confirm sequence root stored =>
      obtain rfl := confirmAnchor_ok hs
      exact fun name _ => rfl
  | operate ctx stored op =>
      obtain ⟨_, hmoved⟩ := h.operate hguard hs
      obtain ⟨husdt0, hfxrp⟩ := op.delta_eq
      have hnet := hmoved.net
      have hheld := hmoved.held
      intro name hname
      rcases List.mem_cons.mp hname with rfl | hname
      · show (s'.claimsUSDT0 : Int) - s'.activeDebt.toNat + op.debit "USDT0" =
          s.claimsUSDT0 - s.activeDebt.toNat + op.credit "USDT0"
        omega
      · obtain rfl := List.mem_singleton.mp hname
        show (s'.claimsFXRP : Int) + op.debit "FXRP" = s.claimsFXRP + op.credit "FXRP"
        omega

theorem covering_step (h : Covering S w) (hguard : Serviced S w move)
    (hw : w.step S move = .ok w') : Covering S w' := by
  have hlinked := h.kept.linked
  have hledger : Sound w'.ledger ∧ ∀ name ∈ assetNames,
      w'.ledger.owed name + w'.promised S name = w'.credited S name := by
    rcases hlinked.coherent.step_commits hw with ⟨hledger, hcommits⟩ | ⟨c, hs, hcommits, hasks⟩
    · unfold World.promised World.credited
      rw [hledger, hcommits]
      exact ⟨h.sound, h.books⟩
    · obtain ⟨hsound, hmoved⟩ := h.sound.call (hguard.guarded _ hasks) hs
      refine ⟨hsound, fun name hname => ?_⟩
      have hbooks := h.books name hname
      have hcall := hmoved name hname
      unfold World.promised World.credited at hbooks ⊢
      rw [hcommits, List.map_append, List.map_append, List.sum_append, List.sum_append]
      simp only [List.map_cons, List.map_nil, List.sum_cons, List.sum_nil, Nat.add_zero]
      omega
  exact {
    attributed := attributed_step h.attributed hguard.delivered hw
    kept := kept_step h.kept hguard.undisturbed hw
    movements := movements_step h.movements hlinked hw hguard.undisturbed h.executed
    executed := executed_signed_step h.executed hw
    sound := hledger.1
    books := hledger.2 }

theorem covering_init : Covering S {} where
  attributed := ⟨coherent_init, by simp⟩
  kept := kept_init
  movements := movements_init
  executed := List.Subset.refl []
  sound := sound_newState
  books := by
    intro name hname
    rcases List.mem_cons.mp hname with rfl | hname
    · rfl
    · obtain rfl := List.mem_singleton.mp hname
      rfl

theorem covering_worldAfter {moves : List Move}
    (h : Machine.Meets (World.step S) (Serviced S) {} moves) : Covering S (worldAfter S moves) :=
  Machine.invariant_of_meets (fun _ _ _ hi hg hw => covering_step hi hg hw) covering_init moves h

/-- A payout is of an asset of the ledger, and what its operation let out. -/
theorem Operation.Owes.transfer_eq {P : Platform} {cfg : Config} {op : Operation} {payout : Payout}
    {settlement : Settlement} {name : String} (hdistinct : cfg.fxrp ≠ cfg.usdt0)
    (howes : op.Owes P cfg payout) (hcarries : settlement.Carries payout)
    (hname : name ∈ assetNames) (hfunds : op.kind.movesFunds = true)
    (hne : settlement.transfer cfg name ≠ 0) :
    settlement.transfer cfg name = op.debit name := by
  unfold Settlement.transfer at hne ⊢
  by_cases hpays : settlement.settlementType ≠ .checkpoint ∧ settlement.token = cfg.tokenOf name
  · rw [if_pos hpays, hcarries.amount]
    have htoken := hpays.2
    rw [hcarries.token] at htoken
    have husdt0 : payout.token = cfg.usdt0 → name = "USDT0" := by
      intro husdt0
      rcases List.mem_cons.mp hname with rfl | hname
      · rfl
      · obtain rfl := List.mem_singleton.mp hname
        rw [husdt0] at htoken
        exact absurd htoken.symm hdistinct
    cases op with
    | acceptQuote q loanID n observed =>
        obtain ⟨_, hpaid, hamount, _⟩ := howes
        rw [husdt0 hpaid, hamount]
        rfl
    | withdrawFromMandate owner mandateID amount id n =>
        obtain ⟨_, hpaid, hamount, _⟩ := howes
        rw [husdt0 hpaid, hamount]
        rfl
    | withdraw owner asset amount id n =>
        obtain ⟨_, hasset, hamount, _⟩ := howes
        rw [hamount]
        rcases List.mem_cons.mp hname with rfl | hname
        · replace htoken : payout.token = cfg.usdt0 := htoken
          unfold assetForToken at hasset
          rw [if_neg (by rw [htoken]; exact hdistinct.symm), if_pos htoken] at hasset
          cases hasset
          rfl
        · obtain rfl := List.mem_singleton.mp hname
          replace htoken : payout.token = cfg.fxrp := htoken
          unfold assetForToken at hasset
          rw [if_pos htoken] at hasset
          cases hasset
          rfl
    | _ => cases hfunds
  · rw [if_neg hpays] at hne
    exact absurd rfl hne

/-- Each payment is that of a commit of its own. -/
theorem Covering.paid_le (h : Covering S w) (hdistinct : S.config.fxrp ≠ S.config.usdt0)
    {name : String} (hname : name ∈ assetNames) :
    w.vault.paid S.config name ≤ w.promised S name := by
  classical
  refine MapSum.sum_le_of_matching (R := fun settlement (c : State × Call) =>
    settlement.nextSequence = c.1.sequence + 1) ?_ ?_
  · intro settlement hmem hne
    have htype : settlement.settlementType ≠ .checkpoint := by
      intro htype
      unfold Settlement.transfer at hne
      rw [if_neg (by simp [htype])] at hne
      exact hne rfl
    obtain ⟨c, hc, op, hop, hfunds, hseq⟩ := h.movements.pays settlement (h.executed hmem) htype
    obtain ⟨payout, hgrounds, hcarries⟩ :=
      h.kept.paid settlement (h.executed hmem) c hc op hop hfunds hseq
    obtain ⟨ctx, stored, hevent⟩ := hop
    refine ⟨c, hc, hseq, Nat.le_of_eq ?_⟩
    rw [hgrounds.owes.transfer_eq hdistinct hcarries hname hfunds hne, hevent]
    rfl
  · -- the settlements executed have numbers of their own
    have hnodup : (w.vault.executed.map Settlement.nextSequence).Nodup := by
      rw [h.kept.linked.executed]
      exact List.nodup_range'
    refine (List.pairwise_map.mp hnodup).imp ?_
    intro settlement settlement' hne c hseq hseq'
    exact hne (hseq.trans hseq'.symm)

end Covering

/-- **The vault has what the ledger owes.**  In every state of every serviced run, and in each of
the two assets: what the vault has received covers what the ledger owes and has not lent out,
together with every payout it ever committed; and what the vault has paid is part of those payouts.
What accounts and mandates have available is no more than what is owed. -/
theorem vault_covers_ledger (S : Setup) (hdistinct : S.config.fxrp ≠ S.config.usdt0)
    (moves : List Move) (h : Machine.Meets (World.step S) (Serviced S) {} moves) :
    (∀ name ∈ assetNames,
      (worldAfter S moves).ledger.owed name + (worldAfter S moves).promised S name ≤
          (worldAfter S moves).vault.received S.config name ∧
        (worldAfter S moves).vault.paid S.config name ≤ (worldAfter S moves).promised S name) ∧
      Solvent (worldAfter S moves).ledger := by
  have hcovering := covering_worldAfter h
  refine ⟨fun name hname => ⟨?_, hcovering.paid_le hdistinct hname⟩,
    hcovering.sound.toBacked.solvent⟩
  rw [hcovering.books name hname]
  exact Int.ofNat_le.mpr (hcovering.attributed.credited_le name)

/-! ### A withdrawal, from the deposit on -/

/-- Account 10 pays in, withdraws, and is paid. -/
def withdrawnDeposit : List Move :=
  orderlyDeposit ++ sampleSettled 3 1 (sampleSettlement 1 .withdrawRequest
    (Hash.hex (Bytes.Fixed.ofList 32 [3])) 3
      { settlementType := .userWithdrawal, account := sampleAddress 10
        token := sampleSetup.config.fxrp, amount := 100, destination := sampleAddress 11 })

def serviced (S : Setup) (w : World) (move : Move) : Bool :=
  Undisturbed S w move && Delivered S w move &&
    decide (∀ e ∈ w.asks move, FreshLoanID w.ledger e ∧ KeepsRange w.ledger e)

theorem serviced_of_true {S : Setup} (w : World) (move : Move) (h : serviced S w move = true) :
    Serviced S w move := by
  unfold serviced at h
  simp only [Bool.and_eq_true, decide_eq_true_eq] at h
  obtain ⟨⟨hundisturbed, hdelivered⟩, hguarded⟩ := h
  exact ⟨hundisturbed, hdelivered, fun e he => guarded_iff.mp (hguarded e he)⟩

theorem withdrawnDeposit_run :
    Machine.checks (World.step sampleSetup) (serviced sampleSetup) {} withdrawnDeposit = true ∧
      (worldAfter sampleSetup withdrawnDeposit).vault.paid sampleSetup.config "FXRP" = 100 := by
  decide +kernel

theorem vault_covers_ledger_withdrawn :
    (worldAfter sampleSetup withdrawnDeposit).vault.paid sampleSetup.config "FXRP" = 100 ∧
      (worldAfter sampleSetup withdrawnDeposit).ledger.owed "FXRP" +
          (worldAfter sampleSetup withdrawnDeposit).promised sampleSetup "FXRP" ≤
        (worldAfter sampleSetup withdrawnDeposit).vault.received sampleSetup.config "FXRP" := by
  obtain ⟨hchecks, hpaid⟩ := withdrawnDeposit_run
  refine ⟨hpaid, ?_⟩
  exact ((vault_covers_ledger sampleSetup (by decide) withdrawnDeposit
    ((Machine.meets_of_checks hchecks).mono serviced_of_true)).1 "FXRP" (by decide)).1

end QuietLine
