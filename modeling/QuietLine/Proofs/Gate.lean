/-
One mutation at a time.

The gate is open exactly while no anchor is pending: the channel of the engine is
closed by the confirmation and replaced by the next commit.  A call that waits holds
the channel it found, which is either closed by now or still the engine's, so no
clearing is missed and no channel is closed twice.
-/
import QuietLine.Ledger.Gate

namespace QuietLine

open Outcome

variable {Text Sealed : Type} {C : Codec Text Sealed} {host : Host}

/-! ### What a step can do -/

/-- What a call of `mutate` may become without a commit. -/
inductive Engine.Passes (e : Engine Text Sealed) (c : Caller) : Phase → Prop
  /-- It has found an anchor pending. -/
  | waits (entering : c.phase = .entering) (pending : e.state.pendingAnchor ≠ none) :
      Passes e c (.waiting e.anchorCleared)
  | wakes {channel : Nat} (waiting : c.phase = .waiting channel) (closed : channel ∈ e.closed) :
      Passes e c .entering
  | fails {cause : LedgerError} (running : ∀ result, c.phase ≠ .returned result) :
      Passes e c (.returned (.error cause))

/-- The checks the method makes before `mutate`; they read the time of the request alone. -/
def Caller.Checked (c : Caller) : Prop :=
  ∀ ctx : Context, c.op.validate { ctx with requestedAt := c.requestedAt } = .ok ()

/-- A step of the engine, by what it changes; `caller` is the call of `mutate` that takes it. -/
inductive Engine.Steps (C : Codec Text Sealed) (host : Host) (e : Engine Text Sealed) :
    Option Nat → Engine Text Sealed → Prop
  | called {c : Caller}
      (fresh : c.phase = .entering ∧ c.Checked ∨ ∃ cause, c.phase = .returned (.error cause)) :
      Steps C host e none { e with callers := e.callers ++ [c] }
  | passed {i : Nat} {c : Caller} {phase : Phase} (running : e.callers[i]? = some c)
      (passes : e.Passes c phase) : Steps C host e (some i) (e.setPhase i c phase)
  | committed {i : Nat} {c : Caller} {ctx : Context} {write : Write} {next : State}
      {store : Store Text Sealed} (running : e.callers[i]? = some c)
      (entering : c.phase = .entering) (clear : e.state.pendingAnchor = none)
      (body : c.op.body .wrapping host { ctx with requestedAt := c.requestedAt } e.state = .ok next)
      (stored : e.store.commit C write (anchored host c.op.kind c.op.operationID e.state next)
        c.op.kind = .ok store) :
      Steps C host e (some i) { e.setPhase i c (.returned (.ok ())) with
        store, state := anchored host c.op.kind c.op.operationID e.state next
        anchorCleared := e.channels, channels := e.channels + 1
        committed := e.committed ++ [i] }
  | answered : Steps C host e none e
  | cleared {p : PendingAnchor} {write : Write} {store : Store Text Sealed}
      (pending : e.state.pendingAnchor = some p)
      (stored : e.store.saveState C write { e.state with pendingAnchor := none } = .ok store)
      (opened : e.anchorCleared ∉ e.closed) :
      Steps C host e none { e with
        store, state := { e.state with pendingAnchor := none }
        closed := e.anchorCleared :: e.closed }

section Steps

variable {e e' : Engine Text Sealed}

theorem Operation.validate_requestedAt (op : Operation) {ctx ctx' : Context}
    (h : ctx'.requestedAt = ctx.requestedAt) : op.validate ctx' = op.validate ctx := by
  cases op <;> simp [Operation.validate, h]

theorem Engine.call_steps (op : Operation) (ctx : Context) : e.Steps C host none (e.call op ctx) := by
  unfold Engine.call
  refine .called ?_
  cases h : op.validate ctx with
  | ok u => exact Or.inl ⟨rfl, fun _ => (op.validate_requestedAt rfl).trans h⟩
  | error cause => exact Or.inr ⟨cause, rfl⟩

theorem Engine.commit_steps {i : Nat} {c : Caller} {ctx : Context} {write : Write}
    (hget : e.callers[i]? = some c) (hentering : c.phase = .entering)
    (hclear : e.state.pendingAnchor = none) :
    e.Steps C host (some i) (e.commit C host i c ctx write) := by
  have hrefused : ∀ cause, e.Steps C host (some i) (e.setPhase i c (.returned (.error cause))) := by
    intro cause
    refine .passed hget (.fails ?_)
    intro result h
    rw [hentering] at h
    cases h
  unfold Engine.commit
  dsimp only
  cases hbody : c.op.body .wrapping host { ctx with requestedAt := c.requestedAt } e.state with
  | error cause => exact hrefused cause
  | ok next =>
      rw [ok_bind]
      cases hstored : e.store.commit C write
          (anchored host c.op.kind c.op.operationID e.state next) c.op.kind with
      | error cause => exact hrefused _
      | ok store => exact .committed hget hentering hclear hbody hstored

theorem Engine.lock_steps {i : Nat} {ctx : Context} {write : Write}
    (h : e.lock C host i ctx write = .ok e') : e.Steps C host (some i) e' := by
  unfold Engine.lock at h
  cases hget : e.callers[i]? with
  | none => rw [hget] at h; cases h
  | some c =>
      rw [hget] at h
      dsimp only at h
      cases hphase : c.phase with
      | entering =>
          rw [hphase] at h
          dsimp only at h
          by_cases hclear : e.state.pendingAnchor = none
          · rw [if_pos hclear] at h
            cases h
            exact Engine.commit_steps hget hphase hclear
          · rw [if_neg hclear] at h
            cases h
            exact .passed hget (.waits hphase hclear)
      | _ => rw [hphase] at h; cases h

theorem Engine.wake_steps {i : Nat} (h : e.wake i = .ok e') : e.Steps C host (some i) e' := by
  unfold Engine.wake at h
  cases hget : e.callers[i]? with
  | none => rw [hget] at h; cases h
  | some c =>
      rw [hget] at h
      dsimp only at h
      cases hphase : c.phase with
      | waiting channel =>
          rw [hphase] at h
          dsimp only at h
          by_cases hclosed : channel ∈ e.closed
          · rw [if_pos hclosed] at h
            cases h
            exact .passed hget (.wakes hphase hclosed)
          · rw [if_neg hclosed] at h
            cases h
      | _ => rw [hphase] at h; cases h

theorem Engine.timeout_steps {i : Nat} (h : e.timeout i = .ok e') :
    e.Steps C host (some i) e' := by
  unfold Engine.timeout at h
  cases hget : e.callers[i]? with
  | none => rw [hget] at h; cases h
  | some c =>
      rw [hget] at h
      dsimp only at h
      cases hphase : c.phase with
      | waiting channel =>
          rw [hphase] at h
          cases h
          refine .passed hget (.fails ?_)
          intro result hc
          rw [hphase] at hc
          cases hc
      | _ => rw [hphase] at h; cases h

/-- A confirmation changes nothing, or it is accepted and clears the pending anchor. -/
theorem Engine.confirmAnchor_cases {sequence : Nat} {root : String} {write : Write}
    {answer : Except LedgerError Unit}
    (h : e.confirmAnchor C sequence root write = .ok (e', answer)) :
    (e' = e ∧ (answer = .ok () → e.state.pendingAnchor = none ∧ e.state.sequence = sequence ∧
      equalFold e.state.root root = true)) ∨
    ∃ p store, answer = .ok () ∧ e.state.pendingAnchor = some p ∧ p.nextSequence = sequence ∧
      equalFold p.nextRoot root = true ∧ e.anchorCleared ∉ e.closed ∧
      e.store.saveState C write { e.state with pendingAnchor := none } = .ok store ∧
      e' = { e with
        store, state := { e.state with pendingAnchor := none }
        closed := e.anchorCleared :: e.closed } := by
  unfold Engine.confirmAnchor at h
  cases hpending : e.state.pendingAnchor with
  | none =>
      rw [hpending] at h
      dsimp only at h
      by_cases hsame : e.state.sequence = sequence ∧ equalFold e.state.root root
      · rw [if_pos hsame] at h
        cases h
        exact Or.inl ⟨rfl, fun _ => ⟨rfl, hsame⟩⟩
      · rw [if_neg hsame] at h
        cases h
        exact Or.inl ⟨rfl, nofun⟩
  | some p =>
      rw [hpending] at h
      dsimp only at h
      by_cases hmismatch : p.nextSequence ≠ sequence ∨ ¬ equalFold p.nextRoot root
      · rw [if_pos hmismatch] at h
        cases h
        exact Or.inl ⟨rfl, nofun⟩
      · rw [if_neg hmismatch] at h
        obtain ⟨hsequence, hroot⟩ := not_or.mp hmismatch
        cases hstored : e.store.saveState C write { e.state with pendingAnchor := none } with
        | error cause =>
            rw [hstored] at h
            cases h
            exact Or.inl ⟨rfl, nofun⟩
        | ok store =>
            rw [hstored] at h
            simp only [withContext, Engine.close, bind_eq_ok, rejectIf_eq_ok] at h
            obtain ⟨closed, ⟨_, hopen, hclosed⟩, hs⟩ := h
            cases hclosed
            cases hs
            exact Or.inr ⟨p, store, rfl, rfl, not_not.mp hsequence, not_not.mp hroot, hopen, rfl,
              rfl⟩

/-- The call of `mutate` that makes a move. -/
def EngineMove.caller : EngineMove → Option Nat
  | .lock i .. => some i
  | .wake i => some i
  | .timeout i => some i
  | _ => none

/-- **The engine in one piece**: what any step does. -/
theorem Engine.step_steps {move : EngineMove} (h : e.step C host move = .ok e') :
    e.Steps C host move.caller e' := by
  cases move with
  | call op ctx => cases h; exact Engine.call_steps op ctx
  | lock i ctx write => exact Engine.lock_steps h
  | wake i => exact Engine.wake_steps h
  | timeout i => exact Engine.timeout_steps h
  | confirm sequence root write =>
      cases hconfirm : e.confirmAnchor C sequence root write with
      | error fault => simp [Engine.step, hconfirm, Except.map] at h
      | ok answered =>
          obtain ⟨e₁, answer⟩ := answered
          simp only [Engine.step, hconfirm, Except.map, Except.ok.injEq] at h
          obtain rfl := h
          rcases Engine.confirmAnchor_cases hconfirm with
            ⟨rfl, _⟩ | ⟨p, store, _, hp, _, _, hopen, hs, rfl⟩
          · exact .answered
          · exact .cleared hp hs hopen

/-- What every step keeps, every run keeps. -/
theorem Engine.invariant {P : Engine Text Sealed → Prop}
    (hstep : ∀ e₁ caller e₂, P e₁ → e₁.Steps C host caller e₂ → P e₂) (h : P e)
    (moves : List EngineMove) : P (e.after C host moves) :=
  Machine.invariant (fun e₁ _ e₂ he hs => hstep e₁ _ e₂ he (Engine.step_steps hs)) h moves

end Steps

/-! ### What holds at every moment -/

/-- The engine between two steps; `base` is the sequence number it started from. -/
structure Engine.Gated (host : Host) (base : Nat) (e : Engine Text Sealed) : Prop where
  ledger : ∃ events, e.state = ledgerAfter .wrapping host events
  gate : e.anchorCleared ∈ e.closed ↔ e.state.pendingAnchor = none
  current : e.anchorCleared < e.channels
  made : ∀ channel ∈ e.closed, channel < e.channels
  waiters : ∀ (i : Nat) (c : Caller) (channel : Nat), e.callers[i]? = some c →
    c.phase = .waiting channel → channel ∈ e.closed ∨ channel = e.anchorCleared
  checked : ∀ (i : Nat) (c : Caller), e.callers[i]? = some c →
    (∀ result, c.phase ≠ .returned result) → c.Checked
  sequence : e.state.sequence = base + e.committed.length
  once : e.committed.Nodup
  committed : ∀ i, i ∈ e.committed ↔
    ∃ c, e.callers[i]? = some c ∧ c.phase = .returned (.ok ())

section Invariant

variable {base : Nat} {e e' : Engine Text Sealed}

/-- The caller that has moved on, and the others. -/
theorem Engine.setPhase_getElem? {i : Nat} {c : Caller} (hget : e.callers[i]? = some c)
    (phase : Phase) (j : Nat) :
    (e.setPhase i c phase).callers[j]? =
      if i = j then some { c with phase } else e.callers[j]? := by
  obtain ⟨hlen, _⟩ := List.getElem?_eq_some_iff.mp hget
  by_cases hij : i = j
  · subst hij
    simp [Engine.setPhase, hlen]
  · simp [Engine.setPhase, hij]

theorem Engine.start_gated (store : Store Text Sealed) (host : Host) (events : List Event) :
    (Engine.start store (ledgerAfter .wrapping host events)).Gated host
      (ledgerAfter .wrapping host events).sequence where
  ledger := ⟨events, rfl⟩
  gate := by
    unfold Engine.start
    by_cases h : (ledgerAfter .wrapping host events).pendingAnchor = none
    · simp [h]
    · simp [h]
  current := Nat.one_pos
  made := by
    intro channel hchannel
    unfold Engine.start at hchannel ⊢
    by_cases h : (ledgerAfter .wrapping host events).pendingAnchor = none
    · simp only [h, if_true, List.mem_singleton] at hchannel
      simp [hchannel]
    · simp [h] at hchannel
  waiters := by intro i c channel h; simp [Engine.start] at h
  checked := by intro i c h; simp [Engine.start] at h
  sequence := rfl
  once := .nil
  committed := by intro i; simp [Engine.start]

theorem Engine.Gated.called (h : e.Gated host base) {c : Caller}
    (hfresh : c.phase = .entering ∧ c.Checked ∨ ∃ cause, c.phase = .returned (.error cause)) :
    ({ e with callers := e.callers ++ [c] } : Engine Text Sealed).Gated host base := by
  -- a caller of the longer list is one that was there, or the new one
  have hcases : ∀ (i : Nat) (d : Caller), (e.callers ++ [c])[i]? = some d →
      e.callers[i]? = some d ∨ d = c := by
    intro i d hd
    rcases Nat.lt_or_ge i e.callers.length with hi | hi
    · exact Or.inl (by rwa [List.getElem?_append_left hi] at hd)
    · rw [List.getElem?_append_right hi] at hd
      exact Or.inr (List.mem_singleton.mp (List.mem_of_getElem? hd))
  refine { h with waiters := ?_, checked := ?_, committed := ?_ }
  · intro i d channel hd hwaiting
    rcases hcases i d hd with hd | rfl
    · exact h.waiters i d channel hd hwaiting
    · rcases hfresh with ⟨hphase, _⟩ | ⟨cause, hphase⟩ <;> rw [hphase] at hwaiting <;>
        cases hwaiting
  · intro i d hd hrunning
    rcases hcases i d hd with hd | rfl
    · exact h.checked i d hd hrunning
    · rcases hfresh with ⟨_, hchecked⟩ | ⟨cause, hphase⟩
      · exact hchecked
      · exact absurd hphase (hrunning _)
  · intro i
    refine (h.committed i).trans ⟨?_, ?_⟩
    · rintro ⟨d, hd, hphase⟩
      obtain ⟨hi, _⟩ := List.getElem?_eq_some_iff.mp hd
      exact ⟨d, by rwa [List.getElem?_append_left hi], hphase⟩
    · rintro ⟨d, hd, hphase⟩
      rcases hcases i d hd with hd | rfl
      · exact ⟨d, hd, hphase⟩
      · rcases hfresh with ⟨hfresh, _⟩ | ⟨cause, hfresh⟩ <;> rw [hfresh] at hphase <;>
          cases hphase

theorem Engine.Gated.passed (h : e.Gated host base) {i : Nat} {c : Caller} {phase : Phase}
    (hget : e.callers[i]? = some c) (hpasses : e.Passes c phase) :
    (e.setPhase i c phase).Gated host base := by
  have hrunning : ∀ result, c.phase ≠ .returned result := by
    intro result hc
    cases hpasses with
    | waits hphase _ => rw [hphase] at hc; cases hc
    | wakes hphase _ => rw [hphase] at hc; cases hc
    | fails hphase => exact hphase result hc
  refine { h with waiters := ?_, checked := ?_, committed := ?_ }
  · intro j d channel hd hwaiting
    rw [Engine.setPhase_getElem? hget] at hd
    by_cases hij : i = j
    · rw [if_pos hij] at hd
      cases hd
      cases hpasses with
      | waits _ _ => cases hwaiting; exact Or.inr rfl
      | wakes _ _ => cases hwaiting
      | fails _ => cases hwaiting
    · rw [if_neg hij] at hd
      exact h.waiters j d channel hd hwaiting
  · intro j d hd hphase
    rw [Engine.setPhase_getElem? hget] at hd
    by_cases hij : i = j
    · rw [if_pos hij] at hd
      cases hd
      exact h.checked i c hget hrunning
    · rw [if_neg hij] at hd
      exact h.checked j d hd hphase
  · intro j
    refine (h.committed j).trans ?_
    rw [Engine.setPhase_getElem? hget]
    by_cases hij : i = j
    · subst hij
      simp only [hget, if_true, Option.some.injEq, exists_eq_left']
      constructor
      · intro hc; exact absurd hc (hrunning _)
      · intro hc; cases hpasses <;> cases hc
    · simp only [if_neg hij]

/-- The store aside, a call that commits does what the ledger does with it. -/
theorem Engine.Gated.step_commit (h : e.Gated host base) {i : Nat} {c : Caller} {ctx : Context}
    {next : State} (hget : e.callers[i]? = some c) (hentering : c.phase = .entering)
    (hclear : e.state.pendingAnchor = none)
    (hbody : c.op.body .wrapping host { ctx with requestedAt := c.requestedAt } e.state = .ok next) :
    QuietLine.step .wrapping host e.state
      (.operate { ctx with requestedAt := c.requestedAt } true c.op) =
        .ok (anchored host c.op.kind c.op.operationID e.state next) := by
  have hchecked : c.Checked := by
    refine h.checked i c hget ?_
    intro result hc
    rw [hentering] at hc
    cases hc
  simp only [QuietLine.step, Operation.apply, mutate, hchecked ctx, ok_bind, hclear, hbody]
  rfl

theorem Engine.Gated.commit (h : e.Gated host base) {i : Nat} {c : Caller} {ctx : Context}
    {next : State} (store : Store Text Sealed) (hget : e.callers[i]? = some c)
    (hentering : c.phase = .entering) (hclear : e.state.pendingAnchor = none)
    (hbody : c.op.body .wrapping host { ctx with requestedAt := c.requestedAt } e.state = .ok next) :
    ({ e.setPhase i c (.returned (.ok ())) with
        store, state := anchored host c.op.kind c.op.operationID e.state next
        anchorCleared := e.channels, channels := e.channels + 1
        committed := e.committed ++ [i] } : Engine Text Sealed).Gated host base := by
  have hnew : e.channels ∉ e.closed := fun hmem => Nat.lt_irrefl _ (h.made _ hmem)
  have hfresh : i ∉ e.committed := by
    intro hmem
    obtain ⟨d, hd, hphase⟩ := (h.committed i).mp hmem
    rw [hget] at hd
    cases hd
    rw [hentering] at hphase
    cases hphase
  refine { ledger := ?_, gate := ?_, current := Nat.lt_succ_self _, made := ?_, waiters := ?_,
           checked := ?_, sequence := ?_, once := ?_, committed := ?_ }
  · obtain ⟨events, hevents⟩ := h.ledger
    refine ⟨events ++ [.operate { ctx with requestedAt := c.requestedAt } true c.op], ?_⟩
    have hstep := h.step_commit hget hentering hclear hbody
    rw [hevents] at hstep ⊢
    unfold ledgerAfter at hstep ⊢
    rw [Machine.run_append, Machine.run_cons, Machine.run_nil, Machine.next_ok hstep]
  · simp [anchored, hnew, Engine.setPhase]
  · intro channel hmem
    exact Nat.lt_succ_of_lt (h.made channel hmem)
  · intro j d channel hd hwaiting
    rw [Engine.setPhase_getElem? hget] at hd
    by_cases hij : i = j
    · rw [if_pos hij] at hd
      cases hd
      cases hwaiting
    · rw [if_neg hij] at hd
      -- the channel it holds was the engine's, and no anchor was pending
      rcases h.waiters j d channel hd hwaiting with hclosed | rfl
      · exact Or.inl hclosed
      · exact Or.inl (h.gate.mpr hclear)
  · intro j d hd hphase
    rw [Engine.setPhase_getElem? hget] at hd
    by_cases hij : i = j
    · rw [if_pos hij] at hd
      cases hd
      exact absurd rfl (hphase _)
    · rw [if_neg hij] at hd
      exact h.checked j d hd hphase
  · simp [anchored, h.sequence, Nat.add_assoc]
  · exact List.nodup_append.mpr ⟨h.once, by simp, by
      intro j hj k hk hjk
      rw [List.mem_singleton.mp hk] at hjk
      exact hfresh (hjk ▸ hj)⟩
  · intro j
    rw [Engine.setPhase_getElem? hget, List.mem_append, List.mem_singleton, h.committed j]
    by_cases hij : i = j
    · subst hij
      simp
    · simp only [if_neg hij, or_iff_left (Ne.symm hij)]

theorem Engine.Gated.cleared (h : e.Gated host base) {p : PendingAnchor}
    (hpending : e.state.pendingAnchor = some p) (store : Store Text Sealed) :
    ({ e with
        store, state := { e.state with pendingAnchor := none }
        closed := e.anchorCleared :: e.closed } : Engine Text Sealed).Gated host base := by
  refine { ledger := ?_, gate := by simp, current := h.current, made := ?_, waiters := ?_,
           checked := h.checked, sequence := h.sequence, once := h.once, committed := h.committed }
  · obtain ⟨events, hevents⟩ := h.ledger
    refine ⟨events ++ [.confirm p.nextSequence p.nextRoot true], ?_⟩
    have hstep : QuietLine.step .wrapping host e.state (.confirm p.nextSequence p.nextRoot true) =
        .ok { e.state with pendingAnchor := none } := confirmAnchor_pending hpending
    rw [hevents] at hstep ⊢
    unfold ledgerAfter at hstep ⊢
    rw [Machine.run_append, Machine.run_cons, Machine.run_nil, Machine.next_ok hstep]
  · intro channel hmem
    rcases List.mem_cons.mp hmem with rfl | hmem
    · exact h.current
    · exact h.made channel hmem
  · intro i c channel hget hwaiting
    rcases h.waiters i c channel hget hwaiting with hclosed | rfl
    · exact Or.inl (List.mem_cons_of_mem _ hclosed)
    · exact Or.inl List.mem_cons_self

theorem Engine.Gated.steps (h : e.Gated host base) {caller : Option Nat}
    (hs : e.Steps C host caller e') : e'.Gated host base := by
  cases hs with
  | called hfresh => exact h.called hfresh
  | passed hget hpasses => exact h.passed hget hpasses
  | committed hget hentering hclear hbody _ => exact h.commit _ hget hentering hclear hbody
  | answered => exact h
  | cleared hpending _ _ => exact h.cleared hpending _

theorem Engine.Gated.after (h : e.Gated host base) (moves : List EngineMove) :
    (e.after C host moves).Gated host base :=
  Engine.invariant (fun _ _ _ he hs => he.steps hs) h moves

end Invariant

/-! ### What later steps keep -/

section Later

variable {base : Nat} {e e' : Engine Text Sealed}

/-- A channel that is closed stays closed. -/
theorem Engine.mem_closed_after {channel : Nat} (h : channel ∈ e.closed)
    (moves : List EngineMove) : channel ∈ (e.after C host moves).closed := by
  have hstep : ∀ (e₁ : Engine Text Sealed) (caller : Option Nat) (e₂ : Engine Text Sealed),
      channel ∈ e₁.closed → e₁.Steps C host caller e₂ → channel ∈ e₂.closed := by
    intro e₁ caller e₂ hmem hs
    cases hs with
    | cleared _ _ _ => exact List.mem_cons_of_mem _ hmem
    | _ => exact hmem
  exact Engine.invariant hstep h moves

/-- A call that has returned stays as it is. -/
theorem Engine.returned_after {i : Nat} {c : Caller} {result : Except LedgerError Unit}
    (hget : e.callers[i]? = some c) (hphase : c.phase = .returned result)
    (moves : List EngineMove) : (e.after C host moves).callers[i]? = some c := by
  have hstep : ∀ (e₁ : Engine Text Sealed) (caller : Option Nat) (e₂ : Engine Text Sealed),
      e₁.callers[i]? = some c → e₁.Steps C host caller e₂ → e₂.callers[i]? = some c := by
    intro e₁ caller e₂ hget hs
    cases hs with
    | called _ => exact List.getElem?_append_left (List.getElem?_eq_some_iff.mp hget).1 ▸ hget
    | @passed j d phase hd hpasses =>
        rw [Engine.setPhase_getElem? hd, if_neg]
        · exact hget
        · rintro rfl
          rw [hget] at hd
          cases hd
          cases hpasses with
          | waits hc _ => rw [hphase] at hc; cases hc
          | wakes hc _ => rw [hphase] at hc; cases hc
          | fails hc => exact hc result hphase
    | @committed j d ctx write next store hd hentering _ _ _ =>
        refine (Engine.setPhase_getElem? hd _ i).trans ?_
        rw [if_neg]
        · exact hget
        · rintro rfl
          rw [hget] at hd
          cases hd
          rw [hphase] at hentering
          cases hentering
    | answered => exact hget
    | cleared _ _ _ => exact hget
  exact Engine.invariant hstep hget moves

/-- Until the next commit a cleared gate stays as it is. -/
theorem Engine.state_after (h : e.state.pendingAnchor = none) (moves : List EngineMove) :
    e.committed <+: (e.after C host moves).committed ∧
      ((e.after C host moves).committed = e.committed →
        (e.after C host moves).state = e.state) := by
  have hstep : ∀ (e₁ : Engine Text Sealed) (caller : Option Nat) (e₂ : Engine Text Sealed),
      e.committed <+: e₁.committed ∧ (e₁.committed = e.committed → e₁.state = e.state) →
      e₁.Steps C host caller e₂ →
      e.committed <+: e₂.committed ∧ (e₂.committed = e.committed → e₂.state = e.state) := by
    rintro e₁ caller e₂ ⟨hgrown, hstate⟩ hs
    cases hs with
    | called _ => exact ⟨hgrown, hstate⟩
    | passed _ _ => exact ⟨hgrown, hstate⟩
    | committed _ _ _ _ _ =>
        refine ⟨hgrown.trans (List.prefix_append _ _), ?_⟩
        intro heq
        have hlen := hgrown.length_le
        rw [← heq] at hlen
        simp at hlen
    | answered => exact ⟨hgrown, hstate⟩
    | cleared hpending _ _ =>
        refine ⟨hgrown, ?_⟩
        intro heq
        rw [hstate heq, h] at hpending
        cases hpending
  exact Engine.invariant hstep ⟨List.prefix_refl _, fun _ => rfl⟩ moves

end Later

/-! ### One mutation at a time -/

/-- Neither the state nor the gate has changed. -/
structure Engine.Keeps (e e' : Engine Text Sealed) : Prop where
  state : e'.state = e.state
  store : e'.store = e.store
  anchorCleared : e'.anchorCleared = e.anchorCleared
  closed : e'.closed = e.closed
  committed : e'.committed = e.committed

/-- The call `i` has committed: the gate is shut behind an anchor of its own. -/
structure Engine.Commits (host : Host) (e : Engine Text Sealed) (i : Nat)
    (e' : Engine Text Sealed) : Prop where
  clear : e.state.pendingAnchor = none
  sequence : e'.state.sequence = e.state.sequence + 1
  root : e'.state.root = rootOf host e'.state
  anchor : ∃ c, e.callers[i]? = some c ∧ e'.state.pendingAnchor = some {
    kind := c.op.kind, operationID := c.op.operationID
    previousSequence := e.state.sequence, nextSequence := e'.state.sequence
    previousRoot := e.state.root, nextRoot := e'.state.root }
  shut : e'.anchorCleared ∉ e'.closed
  closed : e'.closed = e.closed
  committed : e'.committed = e.committed ++ [i]

/-- The pending anchor is confirmed and the channel closed. -/
structure Engine.Clears (e e' : Engine Text Sealed) : Prop where
  pending : e.state.pendingAnchor ≠ none
  state : e'.state = { e.state with pendingAnchor := none }
  anchorCleared : e'.anchorCleared = e.anchorCleared
  opened : e.anchorCleared ∉ e.closed
  closed : e'.closed = e.anchorCleared :: e.closed
  committed : e'.committed = e.committed

section Results

variable {base : Nat} {e e' : Engine Text Sealed}

theorem Engine.Gated.effect (h : e.Gated host base) {caller : Option Nat}
    (hs : e.Steps C host caller e') :
    e.Keeps e' ∨ (∃ i, caller = some i ∧ e.Commits host i e') ∨ caller = none ∧ e.Clears e' := by
  cases hs with
  | called _ => exact Or.inl ⟨rfl, rfl, rfl, rfl, rfl⟩
  | passed _ _ => exact Or.inl ⟨rfl, rfl, rfl, rfl, rfl⟩
  | @committed i c ctx write next store hget _ hclear _ _ =>
      exact Or.inr (Or.inl ⟨i, rfl, {
        clear := hclear
        sequence := rfl
        root := rfl
        anchor := ⟨c, hget, rfl⟩
        shut := fun hmem => Nat.lt_irrefl _ (h.made _ hmem)
        closed := rfl
        committed := rfl }⟩)
  | answered => exact Or.inl ⟨rfl, rfl, rfl, rfl, rfl⟩
  | cleared hpending _ hopen =>
      exact Or.inr (Or.inr ⟨rfl, { pending := by simp [hpending], state := rfl, anchorCleared := rfl,
                                   opened := hopen, closed := rfl, committed := rfl }⟩)

theorem Engine.Gated.confirmAnchor_ok (h : e.Gated host base) (sequence : Nat) (root : String)
    (write : Write) : ∃ e' answer, e.confirmAnchor C sequence root write = .ok (e', answer) := by
  unfold Engine.confirmAnchor
  cases hpending : e.state.pendingAnchor with
  | none => dsimp only; split <;> exact ⟨_, _, rfl⟩
  | some p =>
      dsimp only
      split
      · exact ⟨_, _, rfl⟩
      · cases withContext "persisting anchor confirmation"
            (e.store.saveState C write { e.state with pendingAnchor := none }) with
        | error cause => exact ⟨_, _, rfl⟩
        | ok store =>
            -- an anchor is pending, so the channel is open
            have hopen : e.anchorCleared ∉ e.closed := by simp [h.gate, hpending]
            dsimp only [Engine.close]
            rw [rejectIf_of_not hopen]
            exact ⟨_, _, rfl⟩

/-- No step closes a closed channel. -/
theorem Engine.Gated.close_once (h : e.Gated host base) (move : EngineMove) :
    e.step C host move ≠ .error .closeOfClosedChannel := by
  cases move with
  | call op ctx => nofun
  | lock i ctx write =>
      intro hs
      simp only [Engine.step, Engine.lock] at hs
      split at hs
      · split at hs
        · split at hs <;> cases hs
        · cases hs
      · cases hs
  | wake i =>
      intro hs
      simp only [Engine.step, Engine.wake] at hs
      split at hs
      · split at hs
        · split at hs <;> cases hs
        · cases hs
      · cases hs
  | timeout i =>
      intro hs
      simp only [Engine.step, Engine.timeout] at hs
      split at hs
      · split at hs <;> cases hs
      · cases hs
  | confirm sequence root write =>
      obtain ⟨e', answer, hconfirm⟩ := h.confirmAnchor_ok (C := C) sequence root write
      intro hs
      simp [Engine.step, hconfirm, Except.map] at hs

/-- With no anchor pending a confirmation only compares. -/
theorem Engine.confirmAnchor_clear (h : e.state.pendingAnchor = none) (sequence : Nat)
    (root : String) (write : Write) :
    e.confirmAnchor C sequence root write =
      .ok (e, if e.state.sequence = sequence ∧ equalFold e.state.root root then .ok ()
        else .error .noAnchorPending) := by
  unfold Engine.confirmAnchor
  rw [h]
  dsimp only
  split <;> rfl

theorem Engine.Gated.ownAnchor (h : e.Gated host base) : e.state.OwnAnchor := by
  obtain ⟨events, hevents⟩ := h.ledger
  rw [hevents]
  exact ownAnchor_ledgerAfter .wrapping host events

theorem Engine.Gated.confirmAnchor_refused (h : e.Gated host base) {sequence : Nat} {root : String}
    (hother : ¬ (e.state.sequence = sequence ∧ equalFold e.state.root root)) (write : Write) :
    ∃ cause, e.confirmAnchor C sequence root write = .ok (e, .error cause) := by
  cases hpending : e.state.pendingAnchor with
  | none =>
      rw [Engine.confirmAnchor_clear hpending, if_neg hother]
      exact ⟨_, rfl⟩
  | some p =>
      obtain ⟨_, hsequence, hroot⟩ := h.ownAnchor p hpending
      rw [← hsequence, ← hroot] at hother
      unfold Engine.confirmAnchor
      rw [hpending]
      dsimp only
      rw [if_pos (not_and_or.mp hother)]
      exact ⟨_, rfl⟩

/-- An accepted confirmation leaves no anchor pending and its own state behind. -/
theorem Engine.Gated.confirmed (h : e.Gated host base) {sequence : Nat} {root : String}
    {write : Write} (hconfirm : e.confirmAnchor C sequence root write = .ok (e', .ok ())) :
    e'.state.pendingAnchor = none ∧ e'.state.sequence = sequence ∧
      equalFold e'.state.root root = true := by
  rcases Engine.confirmAnchor_cases hconfirm with
    ⟨rfl, hsame⟩ | ⟨p, store, _, hp, hseq, hroot, _, _, rfl⟩
  · exact hsame rfl
  · obtain ⟨_, hsequence, hown⟩ := h.ownAnchor p hp
    exact ⟨rfl, hsequence.symm.trans hseq, hown ▸ hroot⟩

/-- A call that has not committed has changed nothing. -/
theorem Engine.Gated.keeps_of_failed (h : e.Gated host base) {move : EngineMove} {i : Nat}
    (hcaller : move.caller = some i) (later : List EngineMove) {c : Caller} {cause : LedgerError}
    (hget : ((Machine.next (Engine.step C host) e move).after C host later).callers[i]? = some c)
    (hphase : c.phase = .returned (.error cause)) :
    e.Keeps (Machine.next (Engine.step C host) e move) := by
  cases hs : e.step C host move with
  | error fault =>
      rw [Machine.next_error hs]
      exact ⟨rfl, rfl, rfl, rfl, rfl⟩
  | ok e' =>
      rw [Machine.next_ok hs] at hget ⊢
      rcases h.effect (Engine.step_steps hs) with hkeeps | ⟨j, hj, hcommits⟩ | ⟨hnone, _⟩
      · exact hkeeps
      · -- it would have returned as committed
        obtain rfl : i = j := Option.some.inj (hcaller.symm.trans hj)
        have hgated := h.steps (Engine.step_steps hs)
        obtain ⟨d, hd, hd'⟩ := (hgated.committed i).mp (by simp [hcommits.committed])
        have hlast : (e'.after C host later).callers[i]? = some d :=
          Engine.returned_after hd hd' later
        rw [hget] at hlast
        cases hlast
        rw [hphase] at hd'
        cases hd'
      · rw [hcaller] at hnone
        cases hnone

/-- **One mutation at a time**: whatever the callers do, and whatever fails, from a state the
ledger can reach. -/
theorem mutations_one_at_a_time (C : Codec Text Sealed) (host : Host) (store : Store Text Sealed)
    (events : List Event) (moves : List EngineMove) :
    let first := Engine.start store (ledgerAfter .wrapping host events)
    let e := first.after C host moves
    -- the gate is open exactly while no anchor is pending
    (e.anchorCleared ∈ e.closed ↔ e.state.pendingAnchor = none) ∧
    -- no channel is closed twice
    (∀ move, e.step C host move ≠ .error .closeOfClosedChannel) ∧
    -- once the gate has opened, every call that waits then is woken, whatever comes in between
    (e.state.pendingAnchor = none → ∀ (i : Nat) (c : Caller) (channel : Nat),
      e.callers[i]? = some c → c.phase = .waiting channel → ∀ later, channel ∈ (e.after C host later).closed) ∧
    -- the sequence number counts the commits
    e.state.sequence = first.state.sequence + e.committed.length ∧
    -- a step commits from a clear state and installs its anchor, or clears it, or changes nothing
    (∀ move e', e.step C host move = .ok e' → e.Keeps e' ∨
      (∃ i, move.caller = some i ∧ e.Commits host i e') ∨ move.caller = none ∧ e.Clears e') ∧
    -- a call commits exactly once, or fails and has changed nothing
    (∀ (i : Nat) (c : Caller) (result : Except LedgerError Unit),
      e.callers[i]? = some c → c.phase = .returned result →
      result = .ok () ∧ e.committed.count i = 1 ∨
      (∃ cause, result = .error cause) ∧ e.committed.count i = 0 ∧
        ∀ before move later, moves = before ++ move :: later → move.caller = some i →
          (first.after C host before).Keeps (first.after C host (before ++ [move]))) ∧
    -- a confirmation of anything but the present state is refused
    (∀ sequence root write, ¬ (e.state.sequence = sequence ∧ equalFold e.state.root root) →
      ∃ cause, e.confirmAnchor C sequence root write = .ok (e, .error cause)) ∧
    -- one that was accepted is accepted again until the next commit, and no other is
    (∀ sequence root write e', e.confirmAnchor C sequence root write = .ok (e', .ok ()) →
      ∀ later, (e'.after C host later).committed = e'.committed →
      ∀ sequence' root' write',
        (e'.after C host later).confirmAnchor C sequence' root' write' =
          .ok (e'.after C host later,
            if sequence = sequence' ∧ equalFold root root' then .ok ()
            else .error .noAnchorPending)) := by
  intro first e
  have hfirst := Engine.start_gated store host events
  have h : e.Gated host first.state.sequence := hfirst.after moves
  refine ⟨h.gate, h.close_once, ?_, h.sequence, ?_, ?_, ?_, ?_⟩
  · intro hclear i c channel hget hwaiting later
    apply Engine.mem_closed_after
    rcases h.waiters i c channel hget hwaiting with hclosed | rfl
    · exact hclosed
    · exact h.gate.mpr hclear
  · intro move e' hs
    exact h.effect (Engine.step_steps hs)
  · intro i c result hget hphase
    cases result with
    | ok u =>
        exact Or.inl ⟨rfl,
          List.count_eq_one_of_mem h.once ((h.committed i).mpr ⟨c, hget, hphase⟩)⟩
    | error cause =>
        refine Or.inr ⟨⟨cause, rfl⟩, List.count_eq_zero.mpr ?_, ?_⟩
        · intro hmem
          obtain ⟨d, hd, hd'⟩ := (h.committed i).mp hmem
          rw [hget] at hd
          cases hd
          rw [hphase] at hd'
          cases hd'
        · intro before move later hmoves hcaller
          have hrun : e = (Machine.next (Engine.step C host) (first.after C host before) move).after
              C host later := by
            simp only [e, hmoves, Engine.after, Machine.run_append, Machine.run_cons]
          rw [hrun] at hget
          have hkeeps := (hfirst.after before).keeps_of_failed hcaller later hget hphase
          simpa only [Engine.after, Machine.run_append, Machine.run_cons, Machine.run_nil]
            using hkeeps
  · intro sequence root write hother
    exact h.confirmAnchor_refused hother write
  · intro sequence root write e' hconfirm later hcommitted sequence' root' write'
    obtain ⟨hclear, hsequence, hroot⟩ := h.confirmed hconfirm
    have hstate : (e'.after C host later).state = e'.state :=
      (Engine.state_after hclear later).2 hcommitted
    rw [Engine.confirmAnchor_clear (hstate ▸ hclear), hstate, hsequence]
    simp only [equalFold, decide_eq_true_eq] at hroot ⊢
    rw [hroot]

end Results

end QuietLine
