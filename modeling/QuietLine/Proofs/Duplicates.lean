/-
When a duplicate is one.

An identifier is recorded once, whatever the kind of the operation that records it.
An operation answered `ErrDuplicate` was therefore committed before exactly when no
operation of another kind has taken its identifier first; where one has, the
identifier is gone for the operation it belongs to.  `RECOVER_DEPOSIT` makes a
success of that answer.
-/
import QuietLine.Proofs.Coherence
import QuietLine.Proofs.Identifiers

namespace QuietLine

open Outcome

/-! ### Identifiers are recorded once -/

section Once

variable {host : Host} {events : List Event}

theorem not_mem_of_records {s s' : State} {e : Event} {id : String}
    (hs : step .wrapping host s e = .ok s') (h : e.records id) : id ∉ s.processed := by
  cases e with
  | operate ctx stored op =>
      obtain ⟨_, _, next, hbody, _⟩ := Operation.apply_ok hs
      rw [← h.2]
      exact (body_processed hbody h.1).1
  | confirm sequence root stored => exact h.elim

/-- **No two commits record the same identifier.** -/
theorem records_pairwise (host : Host) (events : List Event) :
    (Machine.commits (step .wrapping host) newState events).Pairwise
      fun c c' => ∀ id, c.2.records id → ¬ c'.2.records id := by
  have hpairs : (Machine.commits (step .wrapping host) newState events).Pairwise
      fun c c' => ∀ id, c.2.records id → id ∈ c'.1.processed :=
    (Machine.pairwise_commits (Q := fun c s => ∀ id, c.2.records id → id ∈ s.processed)
      (fun s e s' hs id hid => (step_processed id s e s' hs).mpr (Or.inr hid))
      (fun c s e s' hQ hs id hid => (step_processed id s e s' hs).mpr (Or.inl (hQ id hid)))
      newState events).1
  refine hpairs.imp_of_mem ?_
  intro c c' _ hc' hR id hid hid'
  obtain ⟨_, _, s', _, _, hs⟩ := Machine.exists_prefix_of_mem_commits hc'
  exact not_mem_of_records hs hid' (hR id hid)

theorem records_once {c c' : State × Event} {id : String}
    (hc : c ∈ Machine.commits (step .wrapping host) newState events)
    (hc' : c' ∈ Machine.commits (step .wrapping host) newState events) (h : c.2.records id)
    (h' : c'.2.records id) : c = c' :=
  Machine.eq_of_pairwise (records_pairwise host events) hc hc' (fun hR => hR id h h')
    (fun hR => hR id h' h)

end Once

/-! ### Shared identifiers -/

/-- Where the operation looks for its identifier, no committed operation of another kind has put
it. -/
def Unshared (host : Host) (events : List Event) (op : Operation) : Prop :=
  op.kind.recorded = true →
    ∀ c ∈ Machine.commits (step .wrapping host) newState events, ∀ ctx stored other,
      c.2 = .operate ctx stored other → other.kind.recorded = true →
        other.operationID = op.operationID → other.kind = op.kind

section Shared

variable {host : Host} {events : List Event} {op : Operation}

theorem taken_iff_processed {s : State} (hrec : op.kind.recorded = true) :
    op.Taken s ↔ op.operationID ∈ s.processed := by
  unfold Operation.Taken
  cases hkind : op.kind with
  | setMandate | cancelMandate => rw [hkind] at hrec; cases hrec
  | _ => exact Iff.rfl

/-- A taken identifier was taken by an operation of the same kind, if no other kind shares it. -/
theorem committedAs_of_taken (htaken : op.Taken (ledgerAfter .wrapping host events))
    (hunshared : Unshared host events op) : CommittedAs host events op.kind op.operationID := by
  cases hrec : op.kind.recorded with
  | true =>
      rw [taken_iff_processed hrec, mem_processed_ledgerAfter] at htaken
      obtain ⟨c, hc, hid⟩ := htaken
      obtain ⟨s, e⟩ := c
      cases e with
      | confirm sequence root stored => exact hid.elim
      | operate ctx stored other =>
          have hkind := hunshared hrec _ hc ctx stored other rfl hid.1 hid.2
          exact ⟨_, hc, ctx, stored, other, rfl, hkind, hid.2⟩
  | false =>
      unfold Operation.Taken at htaken
      cases hkind : op.kind with
      | setMandate =>
          rw [hkind] at htaken
          obtain ⟨c, hc, hid⟩ := (mem_mandates_ledgerAfter events op.operationID).mp htaken
          obtain ⟨s, e⟩ := c
          cases e with
          | confirm sequence root stored => exact hid.elim
          | operate ctx stored other => exact ⟨_, hc, ctx, stored, other, rfl, hid⟩
      | cancelMandate => rw [hkind] at htaken; exact htaken.elim
      | _ => rw [hkind] at hrec; cases hrec

/-- Once an operation was committed under an identifier, no other kind shares it. -/
theorem unshared_of_committedAs (h : CommittedAs host events op.kind op.operationID) :
    Unshared host events op := by
  intro hrec c hc ctx stored other hother hrec' hid
  obtain ⟨c₀, hc₀, ctx₀, stored₀, op₀, hop₀, hkind₀, hid₀⟩ := h
  have hrecords : c.2.records op.operationID := by rw [hother]; exact ⟨hrec', hid⟩
  have hrecords₀ : c₀.2.records op.operationID := by
    rw [hop₀]
    exact ⟨by rw [hkind₀]; exact hrec, hid₀⟩
  obtain rfl := records_once hc hc₀ hrecords hrecords₀
  rw [hother] at hop₀
  cases hop₀
  exact hkind₀

/-- An operation answered `ErrDuplicate` is one exactly when its identifier is not shared. -/
theorem committedAs_iff_of_taken (htaken : op.Taken (ledgerAfter .wrapping host events)) :
    CommittedAs host events op.kind op.operationID ↔ Unshared host events op :=
  ⟨unshared_of_committedAs, committedAs_of_taken htaken⟩

/-- The only duplicate `Deposit` can report is its own. -/
theorem deposit_isDuplicate {ctx : Context} {stored : Bool} {s : State} {owner asset id : String}
    {amount : UInt64} {cause : LedgerError}
    (h : (Operation.deposit owner asset amount id).apply .wrapping host ctx stored s = .error cause)
    (hdup : cause.isDuplicate = true) : cause = .duplicate := by
  have hpost : Post ((Operation.deposit owner asset amount id).apply .wrapping host ctx stored s)
      (fun _ => True) fun e => e.isDuplicate = true → e = .duplicate := by
    refine Post.rejectIf (fun _ => by simp [LedgerError.isDuplicate]) fun _ => ?_
    refine Post.rejectIf (fun _ => by simp [LedgerError.isDuplicate]) fun _ => ?_
    refine Post.bind (R := fun _ => True) (Post.orElse (fun _ => ?_) fun _ _ => ?_) fun _ _ => ?_
    · simp [LedgerError.isDuplicate]
    · refine Post.rejectIf (fun _ _ => rfl) fun _ => ?_
      exact Post.rejectIf (fun _ => by simp [LedgerError.isDuplicate]) fun _ => Post.pure trivial
    · exact Post.rejectIf (fun _ => by simp [LedgerError.isDuplicate]) fun _ => Post.pure trivial
  exact hpost.of_error h hdup

end Shared

/-! ### The answers -/

/-- What is taken stays taken. -/
theorem taken_ledgerAfter_append {host : Host} {op : Operation} {before : List Event}
    (after : List Event) (hrec : op.kind.recorded = true)
    (h : op.Taken (ledgerAfter .wrapping host before)) :
    op.Taken (ledgerAfter .wrapping host (before ++ after)) := by
  rw [taken_iff_processed hrec, mem_processed_ledgerAfter] at h ⊢
  obtain ⟨c, hc, hid⟩ := h
  refine ⟨c, ?_, hid⟩
  rw [Machine.commits_append]
  exact List.mem_append_left _ hc

/-- **A duplicate is one exactly when its identifier is not shared.**  In every state of every run
of the engine, an operation that is answered `ErrDuplicate` was committed before, by its kind and
identifier, if and only if no operation of another kind has recorded the identifier; and where
`RECOVER_DEPOSIT` reports its deposit as already processed, the deposit was committed under the
same condition. -/
theorem duplicate_iff_unshared (S : Setup) :
    (∀ (events : List Event) (ctx : Context) (stored : Bool) (op : Operation),
      (op.apply .wrapping S.host ctx stored (ledgerAfter .wrapping S.host events) =
          .error .duplicate → CommittedAs S.host events op.kind op.operationID) ↔
        ((ledgerAfter .wrapping S.host events).pendingAnchor = none → op.validate ctx = .ok () →
          Unshared S.host events op)) ∧
    ∀ (moves : List Move) (pid : Nat) (h : Started),
      (worldAfter S moves).handlers[pid]? = some h → h.process = .done (.ok .alreadyProcessed) →
        ∃ di payload asset, DirectOf S.platform h.action di ∧
          di.opCommand = toHash "RECOVER_DEPOSIT" ∧
          S.platform.recoverDepositPayload di.message = some payload ∧
          assetForToken S.config payload.token = .ok asset ∧
          (CommittedAs S.host (worldAfter S moves).events .deposit payload.depositID.hex ↔
            Unshared S.host (worldAfter S moves).events
              (.deposit (payload.account.hex S.platform.keccak256) asset payload.amount
                payload.depositID.hex)) := by
  constructor
  · intro events ctx stored op
    rw [apply_duplicate_iff]
    constructor
    · intro hsound hpending hvalid
      by_cases htaken : op.Taken (ledgerAfter .wrapping S.host events)
      · exact unshared_of_committedAs (hsound ⟨hpending, hvalid, htaken⟩)
      · -- an identifier that is free is not shared either
        intro hrec c hc ctx' stored' other hother hrec' hid
        refine absurd ?_ htaken
        rw [taken_iff_processed hrec, mem_processed_ledgerAfter]
        exact ⟨c, hc, by rw [hother]; exact ⟨hrec', hid⟩⟩
    · rintro hcond ⟨hpending, hvalid, htaken⟩
      exact committedAs_of_taken htaken (hcond hpending hvalid)
  · intro moves pid h hget hdone
    have hcoherent := coherent_worldAfter S moves
    have hobeys := hcoherent.obeys pid h hget
    rw [hdone] at hobeys
    obtain ⟨di, payload, asset, cause, rest, hdirect, hcommand, hpayload, hasset, htrace, hdup⟩ :=
      hobeys rfl
    refine ⟨di, payload, asset, hdirect, hcommand, hpayload, hasset, ?_⟩
    -- the engine answered so in some past state, and no identifier is given up again
    obtain ⟨s, ctx, stored, ⟨before, ⟨after, hcalls⟩, hs⟩, happly⟩ :=
      hcoherent.recalls pid h hget _ (by rw [htrace]; exact List.mem_cons_self)
    obtain rfl := deposit_isDuplicate happly hdup
    obtain ⟨_, _, htaken⟩ := (apply_duplicate_iff S.host ctx stored _ s).mp happly
    rw [hs, ← ledgerAfter_events] at htaken
    have hstill := taken_ledgerAfter_append (after.map Call.event) rfl htaken
    rw [← List.map_append, hcalls] at hstill
    have hiff := committedAs_iff_of_taken hstill
    exact hiff

/-- The identifier of a deposit that is on its way. -/
def awaitedDeposit : Hash := Bytes.Fixed.ofList 32 [0xd1]

/-- Someone else opens an account under it. -/
def borrowedIdentifier : List Operation := [.openAccount "0xa" awaitedDeposit.hex 0]

/-- The deposit is then a duplicate, and nobody has made it. -/
theorem borrowedIdentifier_blocks :
    (Operation.deposit "0xb" "FXRP" 5 awaitedDeposit.hex).apply .wrapping sampleHost
        { requestedAt := 1000, now := 1000, range := RangeOrder.sorted } true
        (ledgerAfter .wrapping sampleHost
          (settledCalls .wrapping sampleHost newState borrowedIdentifier)) = .error .duplicate ∧
      ¬ CommittedAs sampleHost (settledCalls .wrapping sampleHost newState borrowedIdentifier)
        .deposit awaitedDeposit.hex := by
  constructor
  · rw [apply_duplicate_iff]
    rw [ledgerAfter, run_settledCalls]
    refine ⟨by decide +kernel, rfl, ?_⟩
    show awaitedDeposit.hex ∈ (settledState .wrapping sampleHost newState borrowedIdentifier).processed
    decide +kernel
  · rintro ⟨c, hc, ctx, stored, op, hop, hkind, _⟩
    have hall : (Machine.commits (step .wrapping sampleHost) newState
        (settledCalls .wrapping sampleHost newState borrowedIdentifier)).all (fun c =>
          !c.2.isOf .deposit) = true := by decide +kernel
    have hnone := List.all_eq_true.mp hall c hc
    rw [hop] at hnone
    simp [Event.isOf, hkind] at hnone

end QuietLine
