/-
The engine: the eleven operations under `mutate`, and `ConfirmAnchor`.

`mutate` runs an operation on a copy of the state and commits the copy only when
the operation succeeds, so a refused operation leaves the state alone and a run is
a `Machine.run`.  Every committed operation takes the next sequence number, hashes
the new state and leaves an anchor pending; until that anchor is confirmed no
other operation is committed.
-/
import QuietLine.Library.Machine
import QuietLine.Ledger.Operations

namespace QuietLine

open Outcome

/-! ### Operations -/

inductive Operation where
  | openAccount (owner operationID : String) (expectedNonce : Nat)
  | deposit (owner asset : String) (amount : UInt64) (depositID : String)
  | setMandate (owner id : String) (amount : UInt64) (minAPR : UInt32) (termMask : UInt8)
      (perBorrowerCap : UInt64) (expectedNonce : Nat)
  | cancelMandate (owner id : String) (expectedNonce : Nat)
  | acceptQuote (q : Quote) (loanID : String) (expectedNonce : Nat) (observedPrice : Option Price)
  | riskTick (price : Price) (operationID : String)
  | repay (owner : String) (amount : UInt64) (operationID : String) (expectedNonce : Nat)
  | liquidate (loanID operationID : String)
  | seedBackstop (amount : UInt64) (operationID : String)
  | withdraw (owner asset : String) (amount : UInt64) (operationID : String) (expectedNonce : Nat)
  | withdrawFromMandate (owner mandateID : String) (amount : UInt64) (operationID : String)
      (expectedNonce : Nat)

namespace Operation

/-- The `kind` the method passes to `mutate`. -/
def kind : Operation → OpKind
  | openAccount .. => .openAccount
  | deposit .. => .deposit
  | setMandate .. => .setMandate
  | cancelMandate .. => .cancelMandate
  | acceptQuote .. => .borrowAccept
  | riskTick .. => .riskTick
  | repay .. => .applyRepayment
  | liquidate .. => .liquidate
  | seedBackstop .. => .backstopDeposit
  | withdraw .. => .withdrawRequest
  | withdrawFromMandate .. => .withdrawFromMandate

/-- The `operationID` the method passes to `mutate`. -/
def operationID : Operation → String
  | openAccount _ operationID _ => operationID
  | deposit _ _ _ depositID => depositID
  | setMandate _ id .. => id
  | cancelMandate _ id _ => id
  | acceptQuote q .. => q.requestID
  | riskTick _ operationID => operationID
  | repay _ _ operationID _ => operationID
  | liquidate _ operationID => operationID
  | seedBackstop _ operationID => operationID
  | withdraw _ _ _ operationID _ => operationID
  | withdrawFromMandate _ _ _ operationID _ => operationID

/-- What the method checks before it calls `mutate`. -/
def validate (ctx : Context) : Operation → Except LedgerError Unit
  | deposit _ asset amount _ =>
      rejectIf (amount = 0 ∨ Asset.ofName asset = none) .invalidDeposit
  | setMandate _ _ amount minAPR termMask perBorrowerCap _ =>
      rejectIf (amount = 0 ∨ minAPR < 600 ∨ minAPR > 2000 ∨ termMask = 0 ∨ termMask > 7 ∨
        perBorrowerCap = 0) .invalidMandate
  | riskTick price _ => rejectIf (price.isUnusable ctx.requestedAt) .invalidObservation
  | seedBackstop amount _ => rejectIf (amount = 0) .invalidBackstopDeposit
  | withdraw _ asset amount .. =>
      rejectIf (amount = 0 ∨ Asset.ofName asset = none) .invalidWithdrawal
  | withdrawFromMandate _ _ amount .. => rejectIf (amount = 0) .invalidWithdrawal
  | _ => .ok ()

/-- The closure the method passes to `mutate`. -/
def body (A : Arith) (host : Host) (ctx : Context) : Operation → State → Except LedgerError State
  | openAccount owner operationID nonce, s => QuietLine.openAccount owner operationID nonce s
  | deposit owner asset amount depositID, s => do
      let asset ← orElse .invalidDeposit (Asset.ofName asset)
      QuietLine.deposit ctx owner asset amount depositID s
  | setMandate owner id amount minAPR termMask perBorrowerCap nonce, s =>
      QuietLine.setMandate A ctx owner id amount minAPR termMask perBorrowerCap nonce s
  | cancelMandate owner id nonce, s => QuietLine.cancelMandate A owner id nonce s
  | acceptQuote q loanID nonce observedPrice, s =>
      QuietLine.acceptQuote A host ctx q loanID nonce observedPrice s
  | riskTick price operationID, s => QuietLine.riskTick A ctx price operationID s
  | repay owner amount operationID nonce, s =>
      QuietLine.repay A ctx owner amount operationID nonce s
  | liquidate loanID operationID, s => QuietLine.liquidate A loanID operationID s
  | seedBackstop amount operationID, s => QuietLine.seedBackstop amount operationID s
  | withdraw owner asset amount operationID nonce, s => do
      let asset ← orElse .invalidWithdrawal (Asset.ofName asset)
      QuietLine.withdraw A ctx owner asset amount operationID nonce s
  | withdrawFromMandate owner mandateID amount operationID nonce, s =>
      QuietLine.withdrawFromMandate A ctx owner mandateID amount operationID nonce s

end Operation

/-! ### Committing -/

/-- `rootOf`. -/
def rootOf (host : Host) (s : State) : String :=
  "0x" ++ String.ofList (Bytes.hexEncode
    (host.sha256 (host.marshalState { s with root := "", pendingAnchor := none })).toList)

/-- The copy `mutate` commits: the next state numbered and hashed, its anchor pending. -/
def anchored (host : Host) (kind : OpKind) (operationID : String) (s next : State) : State :=
  let next := { next with sequence := s.sequence + 1 }
  let root := rootOf host next
  { next with
    root
    pendingAnchor := some {
      kind, operationID
      previousSequence := s.sequence
      nextSequence := s.sequence + 1
      previousRoot := s.root
      nextRoot := root } }

/-- `mutate`, when it has the lock; `stored` says whether `store.Commit` succeeds. -/
def mutate (host : Host) (kind : OpKind) (operationID : String) (stored : Bool)
    (fn : State → Except LedgerError State) (s : State) : Except LedgerError State := do
  rejectIf (s.pendingAnchor.isSome) .anchorPending
  let next ← fn s
  rejectIf (stored = false) (.wrap "persisting mutation" .storeFailure)
  return anchored host kind operationID s next

/-- One call of an engine method. -/
def Operation.apply (A : Arith) (host : Host) (ctx : Context) (stored : Bool) (op : Operation)
    (s : State) : Except LedgerError State := do
  op.validate ctx
  mutate host op.kind op.operationID stored (op.body A host ctx) s

/-- `strings.EqualFold`, on the hex strings it compares here. -/
def equalFold (a b : String) : Bool := toLower a = toLower b

/-- `ConfirmAnchor`. -/
def confirmAnchor (sequence : Nat) (root : String) (stored : Bool) (s : State) :
    Except LedgerError State :=
  match s.pendingAnchor with
  | none => do
      rejectIf (¬ (s.sequence = sequence ∧ equalFold s.root root)) .noAnchorPending
      return s
  | some pending => do
      rejectIf (pending.nextSequence ≠ sequence ∨ ¬ equalFold pending.nextRoot root)
        .anchorMismatch
      rejectIf (stored = false) (.wrap "persisting anchor confirmation" .storeFailure)
      return { s with pendingAnchor := none }

/-! ### The ledger as a machine -/

inductive Event where
  | operate (ctx : Context) (stored : Bool) (op : Operation)
  | confirm (sequence : Nat) (root : String) (stored : Bool)

/-- The event is a call of an operation of the kind. -/
def Event.isOf (kind : OpKind) : Event → Bool
  | .operate _ _ op => op.kind = kind
  | .confirm .. => false

/-- What the engine does with a call. -/
def step (A : Arith) (host : Host) (s : State) : Event → Except LedgerError State
  | .operate ctx stored op => op.apply A host ctx stored s
  | .confirm sequence root stored => confirmAnchor sequence root stored s

/-- The state the engine is in after a list of calls, refused ones included. -/
def ledgerAfter (A : Arith) (host : Host) (events : List Event) : State :=
  Machine.run (step A host) newState events

/-! ### Sample runs -/

/-- A host for sample runs: the digest of a state is its sequence number. -/
def sampleHost : Host where
  sha256 := Bytes.Fixed.ofList 32
  marshalState s := Bytes.bigEndian 8 s.sequence

/-- A call at time 1000 that finds the maps in key order. -/
def sampleCall (op : Operation) : Event :=
  .operate { requestedAt := 1000, now := 1000, range := RangeOrder.sorted } true op

/-- The calls of `ops` from `s` on, each commit followed by the confirmation of its anchor. -/
def settledCalls (A : Arith) (host : Host) : State → List Operation → List Event
  | _, [] => []
  | s, op :: rest =>
      match step A host s (sampleCall op) with
      | .error _ => sampleCall op :: settledCalls A host s rest
      | .ok s' =>
          sampleCall op :: .confirm s'.sequence s'.root true ::
            settledCalls A host { s' with pendingAnchor := none } rest

/-- The state they lead to. -/
def settledState (A : Arith) (host : Host) : State → List Operation → State
  | s, [] => s
  | s, op :: rest =>
      match step A host s (sampleCall op) with
      | .error _ => settledState A host s rest
      | .ok s' => settledState A host { s' with pendingAnchor := none } rest

/-- The calls that are accepted on the way, confirmations aside. -/
def settledCommits (A : Arith) (host : Host) : State → List Operation → List (State × Event)
  | _, [] => []
  | s, op :: rest =>
      match step A host s (sampleCall op) with
      | .error _ => settledCommits A host s rest
      | .ok s' =>
          (s, sampleCall op) :: settledCommits A host { s' with pendingAnchor := none } rest

/-! ### Inversion -/

section Inversion

variable {A : Arith} {host : Host} {ctx : Context} {stored : Bool} {op : Operation}
  {s s' next : State}

/-- A committed operation: its checks passed, nothing was pending, and the new state is what
the closure made of the old one, its anchor pending. -/
theorem Operation.apply_ok (h : op.apply A host ctx stored s = .ok s') :
    s.pendingAnchor = none ∧ op.validate ctx = .ok () ∧
      ∃ next, op.body A host ctx s = .ok next ∧
        s' = anchored host op.kind op.operationID s next := by
  unfold Operation.apply mutate at h
  simp only [bind_eq_ok, rejectIf_eq_ok] at h
  obtain ⟨_, hvalid, _, hpending, next, hbody, _, _, hs'⟩ := h
  cases hs'
  refine ⟨?_, hvalid, next, hbody, rfl⟩
  cases hp : s.pendingAnchor with
  | none => rfl
  | some p => rw [hp] at hpending; exact absurd rfl hpending

/-- An accepted confirmation clears the pending anchor or does nothing. -/
theorem confirmAnchor_ok {sequence : Nat} {root : String}
    (h : confirmAnchor sequence root stored s = .ok s') :
    s' = { s with pendingAnchor := none } := by
  unfold confirmAnchor at h
  cases hp : s.pendingAnchor with
  | none =>
      simp only [hp, bind_eq_ok, rejectIf_eq_ok] at h
      obtain ⟨_, _, hs'⟩ := h
      cases hs'
      cases s
      simp only at hp
      rw [hp]
  | some p =>
      simp only [hp, bind_eq_ok, rejectIf_eq_ok] at h
      obtain ⟨_, _, _, _, hs'⟩ := h
      cases hs'
      rfl

theorem confirmAnchor_pending {p : PendingAnchor} (h : s.pendingAnchor = some p) :
    confirmAnchor p.nextSequence p.nextRoot true s = .ok { s with pendingAnchor := none } := by
  unfold confirmAnchor
  rw [h]
  dsimp only
  rw [rejectIf_of_not (by simp [equalFold]), ok_bind, rejectIf_of_not (by simp), ok_bind]
  rfl

/-- A commit is confirmed by its own sequence number and root. -/
theorem confirmAnchor_own (h : op.apply A host ctx stored s = .ok s') :
    confirmAnchor s'.sequence s'.root true s' = .ok { s' with pendingAnchor := none } := by
  obtain ⟨_, _, next, _, rfl⟩ := Operation.apply_ok h
  exact confirmAnchor_pending (s := anchored host op.kind op.operationID s next) rfl

/-- The pending anchor, if there is one, is that of the present state. -/
def State.OwnAnchor (s : State) : Prop :=
  ∀ p, s.pendingAnchor = some p → p.nextSequence = p.previousSequence + 1 ∧
    p.nextSequence = s.sequence ∧ p.nextRoot = s.root

theorem ownAnchor_step {e : Event} (h : step A host s e = .ok s') : s'.OwnAnchor := by
  cases e with
  | operate ctx stored op =>
      obtain ⟨_, _, next, _, rfl⟩ := Operation.apply_ok h
      intro p hp
      cases hp
      exact ⟨rfl, rfl, rfl⟩
  | confirm sequence root stored =>
      obtain rfl := confirmAnchor_ok h
      intro p hp
      cases hp

theorem ownAnchor_ledgerAfter (A : Arith) (host : Host) (events : List Event) :
    (ledgerAfter A host events).OwnAnchor :=
  Machine.invariant (fun _ _ _ _ hs => ownAnchor_step hs) (by intro p hp; cases hp) events

theorem run_settledCalls (A : Arith) (host : Host) (ops : List Operation) (s : State) :
    Machine.run (step A host) s (settledCalls A host s ops) = settledState A host s ops := by
  induction ops generalizing s with
  | nil => rfl
  | cons op rest ih =>
      unfold settledCalls settledState
      cases h : step A host s (sampleCall op) with
      | error e => rw [Machine.run_cons, Machine.next_error h, ih]
      | ok s' =>
          rw [Machine.run_cons, Machine.next_ok h, Machine.run_cons,
            Machine.next_ok (confirmAnchor_own h), ih]

theorem meets_settledCalls {G : State → Event → Prop}
    (hconfirm : ∀ s sequence root stored, G s (.confirm sequence root stored)) {ops : List Operation}
    {s : State} (h : ∀ c ∈ settledCommits A host s ops, G c.1 c.2) :
    Machine.Meets (step A host) G s (settledCalls A host s ops) := by
  induction ops generalizing s with
  | nil => exact Machine.meets_nil s
  | cons op rest ih =>
      unfold settledCalls
      cases hstep : step A host s (sampleCall op) with
      | error e =>
          simp only [settledCommits, hstep] at h
          intro c hc
          simp only [Machine.commits, hstep] at hc
          exact ih h c hc
      | ok s' =>
          simp only [settledCommits, hstep, List.mem_cons, forall_eq_or_imp] at h
          have hown : step A host s' (.confirm s'.sequence s'.root true) =
              .ok { s' with pendingAnchor := none } := confirmAnchor_own hstep
          intro c hc
          simp only [Machine.commits, hstep, hown, List.mem_cons] at hc
          rcases hc with rfl | rfl | hc
          · exact h.1
          · exact hconfirm _ _ _ _
          · exact ih h.2 c hc

/-- What the closure did is what `mutate` commits, numbering and hashing apart. -/
@[simp] theorem anchored_accounts (kind : OpKind) (id : String) :
    (anchored host kind id s next).accounts = next.accounts := rfl

@[simp] theorem anchored_mandates (kind : OpKind) (id : String) :
    (anchored host kind id s next).mandates = next.mandates := rfl

@[simp] theorem anchored_loans (kind : OpKind) (id : String) :
    (anchored host kind id s next).loans = next.loans := rfl

@[simp] theorem anchored_processed (kind : OpKind) (id : String) :
    (anchored host kind id s next).processed = next.processed := rfl

@[simp] theorem anchored_activeDebt (kind : OpKind) (id : String) :
    (anchored host kind id s next).activeDebt = next.activeDebt := rfl

end Inversion

end QuietLine
