/-
A call of `process` returns once enough of its calls are answered.

`Within` bounds the calls a program makes, whatever they are answered; the bound of
each program is put together from the bounds of what it calls.  An answer of the
deployment uses up one, and nothing else that happens beside the call lengthens it.
-/
import QuietLine.Proofs.Wakeups
import QuietLine.System.Deployment

namespace QuietLine

open Process

namespace Relayer

/-! ### How many calls a program makes -/

section Programs

variable {β : Type} {n : Nat}

theorem ask_within {r : Ask} {f : r.Value → Relay β} (hf : ∀ a, Fallible.Within n (f a)) :
    Fallible.Within (n + 1) (Relay.ask r >>= f) := by
  refine Fallible.Within.ask (f := fun x => Fallible.ofExcept x >>= f) fun x => ?_
  exact Fallible.Within.ofExcept hf

theorem requireSuccess_within {what : String} {result : ActionResult} {f : Unit → Relay β}
    (hf : ∀ u, Fallible.Within n (f u)) :
    Fallible.Within n (requireSuccess what result >>= f) :=
  Fallible.Within.ofExcept hf

theorem confirmAnchor_within (anchor : Settlement) :
    Fallible.Within 2 (Relayer.confirmAnchor anchor) :=
  ask_within fun _ => ask_within fun _ => Process.Within.done 0 _

theorem settlementTransaction_within (id : Hash) :
    Fallible.Within 2 (settlementTransaction id) := by
  refine ask_within fun used => ?_
  cases used with
  | false => exact Fallible.Within.pure 1 none
  | true =>
      refine ask_within fun logs => ?_
      cases logs.getLast? with
      | none => exact Fallible.Within.throw 0 _
      | some hash => exact Fallible.Within.pure 0 (some hash)

theorem execute_within (anchor : Settlement) : Fallible.Within 5 (execute anchor) := by
  refine Fallible.Within.bind (m := 2) (n := 3) (settlementTransaction_within _) fun existing => ?_
  cases existing with
  | some hash => exact Fallible.Within.pure 3 hash
  | none =>
      refine Fallible.Within.tryCatch (m := 1) (n := 2) ?_ fun error => ?_
      · exact Fallible.Within.ask fun x => Process.Within.done 0 x
      · refine Fallible.Within.bind (m := 2) (n := 0) (settlementTransaction_within _) ?_
        intro recovered
        cases recovered with
        | some hash => exact Fallible.Within.pure 0 hash
        | none => exact Fallible.Within.throw 0 error

theorem settleAnchor_within (anchor : Settlement) (existing : Option Hash) :
    Fallible.Within 7 (settleAnchor anchor existing) := by
  have hconfirm : ∀ txHash : Hash, Fallible.Within 2 (do Relayer.confirmAnchor anchor; return txHash) :=
    fun txHash => Fallible.Within.bind (m := 2) (n := 0) (confirmAnchor_within anchor)
      fun _ => Fallible.Within.pure 0 txHash
  cases existing with
  | some txHash => exact (hconfirm txHash).mono (by decide)
  | none => exact Fallible.Within.bind (m := 5) (n := 2) (execute_within anchor) hconfirm

theorem anchorState_within : Fallible.Within 3 anchorState := by
  refine ask_within fun sequenceFirst => ?_
  cases sequenceFirst with
  | true => exact ask_within fun _ => ask_within fun _ => Fallible.Within.pure 0 _
  | false => exact ask_within fun _ => ask_within fun _ => Fallible.Within.pure 0 _

theorem settleRecovered_within (settlement : Settlement) (state : Nat × Hash) :
    Fallible.Within 7 (settleRecovered settlement state) := by
  refine Fallible.Within.ofExcept fun _ => ?_
  split
  · exact Fallible.Within.bind (m := 5) (n := 2) (execute_within settlement)
      fun _ => confirmAnchor_within settlement
  · exact (confirmAnchor_within settlement).mono (by decide)

theorem recoverPendingAnchor_within : Fallible.Within 12 recoverPendingAnchor := by
  refine ask_within fun recoveryID => ask_within fun recovery => ?_
  refine requireSuccess_within fun _ => Fallible.Within.ofExcept fun anchor => ?_
  refine Fallible.Within.bind (m := 3) (n := 7) anchorState_within fun state => ?_
  exact Fallible.Within.ofExcept fun settlement => settleRecovered_within settlement state

theorem recoverPendingAnchorAllowingAlreadyCleared_within :
    Fallible.Within 12 recoverPendingAnchorAllowingAlreadyCleared := by
  refine Fallible.Within.tryCatch (m := 12) (n := 0) recoverPendingAnchor_within fun error => ?_
  split
  · exact Fallible.Within.pure 0 ()
  · exact Fallible.Within.throw 0 error

theorem decodeAny_within {data : Option (Except String Reply)} {f : Option Reply → Relay β}
    (hf : ∀ reply, Fallible.Within n (f reply)) : Fallible.Within n (decodeAny data >>= f) := by
  cases data with
  | none => exact hf none
  | some data =>
      cases data with
      | ok reply => exact hf (some reply)
      | error e => exact Fallible.Within.throw n e

theorem recoverDeposit_within (payload : ChainPayload) :
    Fallible.Within 10 (recoverDeposit payload) := by
  have hfound : Fallible.Within 1 (depositForRequest payload.requestID payload.blockNumber) := by
    refine ask_within fun logs => ?_
    cases logs.findSome? (VaultLog.depositFor payload.requestID) with
    | none => exact Fallible.Within.throw 0 _
    | some deposit => exact Fallible.Within.pure 0 deposit
  refine Fallible.Within.bind (m := 1) (n := 9) hfound fun deposit => ?_
  refine ask_within fun recoveryID => ask_within fun recovery => ?_
  refine requireSuccess_within fun _ => decodeAny_within fun response => ?_
  cases findAnchor response with
  | none => exact Fallible.Within.pure 7 _
  | some anchor =>
      exact Fallible.Within.bind (m := 7) (n := 0) (settleAnchor_within anchor none)
        fun txHash => Fallible.Within.pure 0 _

theorem fail_within (id error : String) : Fallible.Within 1 (Relayer.fail id error) :=
  ask_within fun _ => Fallible.Within.pure 0 ()

theorem recoverJob_within (id : String) (payload : Payload) :
    Fallible.Within 23 (recoverJob id payload) := by
  refine Fallible.Within.bind (m := 12) (n := 11)
    recoverPendingAnchorAllowingAlreadyCleared_within fun _ => ?_
  cases payload with
  | direct _ => exact (fail_within id _).mono (by decide)
  | chain chain =>
      dsimp only
      split
      · refine Fallible.Within.bind (m := 10) (n := 1) (recoverDeposit_within chain) ?_
        exact fun recovery => ask_within fun _ => Fallible.Within.pure 0 ()
      · exact (fail_within id _).mono (by decide)

/-- What the `catch` of `process` calls. -/
theorem settleError_within (id : String) (payload : Option Payload) (error : String) :
    Fallible.Within 24 (settleError id payload error) := by
  cases payload with
  | none => exact (fail_within id error).mono (by decide)
  | some payload =>
      unfold settleError
      dsimp only
      split
      · exact Fallible.Within.tryCatch (m := 23) (n := 1) (recoverJob_within id payload)
          fun _ => fail_within id _
      · exact (fail_within id error).mono (by decide)

end Programs

/-! ### What has returned -/

section Returned

variable {o o' : Orchestrator} {now tie : Nat}

theorem proceed_returned (o : Orchestrator) (now : Nat) (job : String) (p : Processing) :
    o.returned <+: (o.proceed now job p).returned :=
  List.prefix_append _ _

/-- A call of `process` that returns in this turn. -/
theorem proceed_done {job : String} {p : Processing} {r : Except String Unit}
    (h : (turn now o.store p).2 = .done r) :
    (o.proceed now job p).returned.length = o.returned.length + 1 := by
  simp [Orchestrator.proceed, h]

/-- A call of `process` that awaits something at the end of this turn. -/
theorem proceed_call (job : String) {p : Processing} {r : Ask} {k : Answered r → Processing}
    (h : (turn now o.store p).2 = .call r k) :
    (o.proceed now job p).returned = o.returned ∧
      (o.proceed now job p).drains = o.drains ++ [{ job, process := .call r k }] := by
  simp [Orchestrator.proceed, h]

theorem nextJob_returned {exhausted : Orchestrator} (h : o.returned <+: exhausted.returned) :
    o.returned <+: (o.nextJob now tie exhausted).returned := by
  unfold Orchestrator.nextJob
  cases o.store.nextRunnableJob tie with
  | none => exact h
  | some job => exact proceed_returned o now job.id _

theorem round_returned (o : Orchestrator) (now tie : Nat) :
    o.returned <+: (o.round now tie).returned :=
  nextJob_returned (o := { o with wakeRequested := false }) List.prefix_rfl

theorem wake_returned (o : Orchestrator) (now tie : Nat) :
    o.returned <+: (o.wake now tie).returned := by
  unfold Orchestrator.wake
  dsimp only
  split
  · exact List.prefix_rfl
  · exact round_returned { o with wakeRequested := true, running := true } now tie

theorem resume_returned (o : Orchestrator) (now tie : Nat) :
    o.returned <+: (o.resume now tie).returned := by
  refine nextJob_returned ?_
  split
  · exact round_returned o now tie
  · exact List.prefix_rfl

/-- The calls that have returned are never forgotten. -/
theorem step_returned {t : Turn} (h : o.step t = .ok o') : o.returned <+: o'.returned := by
  rcases Orchestrator.step_cases h with ⟨store, rfl⟩ | ⟨i, answer, _, h⟩ | ⟨i, _, h⟩
  · exact wake_returned { o with store } t.now t.tie
  · obtain ⟨d, r, k, _, _, rfl⟩ := Orchestrator.answered_ok h
    exact proceed_returned (o.leave i) t.now d.job _
  · obtain ⟨d, r, _, _, ⟨_, rfl⟩ | ⟨_, _, rfl⟩⟩ := Orchestrator.processed_ok h
    · exact resume_returned (o.leave i) t.now t.tie
    · exact List.prefix_rfl

end Returned

/-- The store's answers are calls of the program too. -/
theorem turn_within {now n : Nat} {q : Processing} :
    ∀ {s : Store}, Process.Within n q → Process.Within n (turn now s q).2 := by
  induction q generalizing n with
  | done r => exact id
  | call r k ih =>
      intro s h
      obtain ⟨m, rfl, hk⟩ := h.pos
      cases r with
      | update id patch =>
          simp only [turn]
          cases s.updateJob id patch now with
          | ok result => exact (ih (.ok result.1) (hk _)).mono (Nat.le_succ m)
          | error cause => exact (ih (.error cause.message) (hk _)).mono (Nat.le_succ m)
      | _ => exact h

/-- While a call of `process` is awaited, what else is asked of the orchestrator changes the store
alone, and may ask for another round. -/
theorem turn_beside {o o' : Orchestrator} {job : String} {r : Ask} {k : Answered r → Processing}
    (hrunning : o.running = true) (hdrains : o.drains = [{ job, process := .call r k }]) {t : Turn}
    (hentry : ∀ i answer, t.entry ≠ .answered i answer) (hstep : o.step t = .ok o') :
    ∃ store, o' = { o with store, wakeRequested := true } := by
  rcases Orchestrator.step_cases hstep with ⟨store, rfl⟩ | ⟨i, answer, ht, _⟩ | ⟨i, _, h⟩
  · refine ⟨store, ?_⟩
    unfold Orchestrator.wake
    dsimp only
    rw [if_pos hrunning]
  · exact absurd ht (hentry i answer)
  · obtain ⟨d, result, hd, hp, _⟩ := Orchestrator.processed_ok h
    rw [hdrains] at hd
    cases i with
    | zero => cases hd; cases hp
    | succ i => cases hd

end Relayer

/-! ### Runs of the deployment -/

/-- The call of `process` has not returned, nor has any other since, and it makes at most `n` more
calls. -/
structure Unreturned (returned : Nat) (n : Nat) (d : Deployment) : Prop where
  running : d.relayer.running = true
  returned : d.relayer.returned.length = returned
  left : ∃ job r k, d.relayer.drains = [{ job, process := .call r k }] ∧
    Process.Within n (.call r k)

section Deployments

open Relayer

variable {D : Site} {d d' : Deployment} {returned n : Nat}

/-- What the only drain awaits. -/
theorem awaits_single {job : String} {r : Ask} {k : Answered r → Processing} {i : Nat} {r' : Ask}
    (hdrains : d.relayer.drains = [{ job, process := .call r k }])
    (h : d.awaits i = some r') : i = 0 ∧ r' = r := by
  unfold Deployment.awaits at h
  rw [hdrains] at h
  cases i with
  | zero => cases h; exact ⟨rfl, rfl⟩
  | succ i => cases h

/-- An answer uses up a call, and may be the last. -/
theorem Unreturned.serve (h : Unreturned returned n d) {i now : Nat} {served : Served}
    (hstep : d.serve D i now served = .ok d') :
    returned < d'.relayer.returned.length ∨ ∃ m, m + 1 = n ∧ Unreturned returned m d' := by
  obtain ⟨job, r, k, hdrains, hwithin⟩ := h.left
  obtain ⟨m, rfl, hk⟩ := hwithin.pos
  obtain ⟨r', x, relayer, _, _, hrelayer, rfl⟩ := serve_ok hstep
  obtain ⟨drain, r₁, k₁, hd, hp, rfl⟩ := Orchestrator.answered_ok hrelayer
  rw [hdrains] at hd
  cases i with
  | succ i => cases hd
  | zero =>
      cases hd
      cases hp
      have hleave : (d.relayer.leave 0).drains = [] := by simp [Orchestrator.leave, hdrains]
      have hleft : Process.Within m
          (turn now (d.relayer.leave 0).store (k ((d.answer D served r).getD (.error "")))).2 :=
        turn_within (hk _)
      cases hturn : (turn now (d.relayer.leave 0).store
          (k ((d.answer D served r).getD (.error "")))).2 with
      | done result =>
          left
          show returned < (Orchestrator.proceed ..).returned.length
          rw [proceed_done hturn]
          exact Nat.lt_succ_of_le (Nat.le_of_eq h.returned.symm)
      | call r₂ k₂ =>
          obtain ⟨hreturned, hcalls⟩ := proceed_call job hturn
          rw [hleave, List.nil_append] at hcalls
          exact Or.inr ⟨m, rfl, h.running, hreturned ▸ h.returned, job, r₂, k₂, hcalls,
            hturn ▸ hleft⟩

theorem Unreturned.step (h : Unreturned returned n d) {m : DeploymentMove} (hanswers : m.Answers)
    (hstep : d.step D m = .ok d') :
    returned < d'.relayer.returned.length ∨
      ∃ k, k + m.answered = n ∧ Unreturned returned k d' := by
  cases m with
  | system move =>
      obtain ⟨world, _, rfl⟩ := move_ok hstep
      exact Or.inr ⟨n, rfl, h.running, h.returned, h.left⟩
  | turn t =>
      obtain ⟨hentry, relayer, hrelayer, rfl⟩ := turn_ok hstep
      obtain ⟨job, r, k, hdrains, hwithin⟩ := h.left
      obtain ⟨store, rfl⟩ := turn_beside h.running hdrains hentry hrelayer
      exact Or.inr ⟨n, rfl, h.running, h.returned, job, r, k, hdrains, hwithin⟩
  | accept i id =>
      obtain ⟨_, _, world, _, _, _, _, rfl⟩ := accept_ok hstep
      exact Or.inr ⟨n, rfl, h.running, h.returned, h.left⟩
  | serve i now served => exact h.serve hstep
  | fail i now error => exact hanswers.elim
  | crash => exact hanswers.elim
  | torn writes m => exact hanswers.elim

theorem returned_step {m : DeploymentMove} (hanswers : m.Answers) (hstep : d.step D m = .ok d') :
    d.relayer.returned.length ≤ d'.relayer.returned.length := by
  cases m with
  | system move =>
      obtain ⟨world, _, rfl⟩ := move_ok hstep
      exact Nat.le_refl _
  | turn t =>
      obtain ⟨_, relayer, hrelayer, rfl⟩ := turn_ok hstep
      exact (step_returned hrelayer).length_le
  | accept i id =>
      obtain ⟨_, _, world, _, _, _, _, rfl⟩ := accept_ok hstep
      exact Nat.le_refl _
  | serve i now served =>
      obtain ⟨_, _, relayer, _, _, hrelayer, rfl⟩ := serve_ok hstep
      exact (step_returned (t := { now, entry := .answered i _ }) hrelayer).length_le
  | fail i now error => exact hanswers.elim
  | crash => exact hanswers.elim
  | torn writes m => exact hanswers.elim

/-- **A call of `process` returns** once as many of its calls are answered as it can make. -/
theorem Unreturned.returns (h : Unreturned returned n d) (moves : List DeploymentMove)
    (hanswers : Machine.Meets (Deployment.step D) (fun _ m => m.Answers) d moves)
    (henough : n ≤ d.answers D moves) :
    returned < (Machine.run (Deployment.step D) d moves).relayer.returned.length := by
  rcases Machine.spent (w := DeploymentMove.answered) (fun _ _ _ _ h hm hstep => h.step hm hstep)
    (fun _ _ _ h hm hstep => Nat.lt_of_lt_of_le h (returned_step hm hstep)) h moves hanswers with hreturned | ⟨m, hm, hleft⟩
  · exact hreturned
  · obtain ⟨_, _, _, _, hwithin⟩ := hleft.left
    obtain ⟨m', rfl, _⟩ := hwithin.pos
    have hspent : m' + 1 + d.answers D moves = n := hm
    omega

end Deployments

end QuietLine
