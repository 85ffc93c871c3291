/-
When a recovery calls the vault diverged.

`recoverPendingAnchor` compares the settlement it was given with the vault as it finds
it, and it finds it in two calls after the settlement was drawn up.  Two facts say what
the comparison comes to.

  * The settlement was signed, so until the vault has moved past it the vault stands at
    one of its ends (`Linked.not_diverges`).
  * What the two calls return is the vault at one moment, unless it moved between them.

So the branch that throws tells of no divergence: the vault was read while it moved, or
it had gone on since.
-/
import QuietLine.Proofs.Recovery
import QuietLine.Proofs.Traces

namespace QuietLine

open Process Outcome

/-! ### What a handler answers with was signed -/

/-- An anchor is answered once it has been signed. -/
def AnchorSigned (t : Trace) (reply : Reply) : Prop :=
  ∀ settlement, reply = .anchor settlement → (⟨.sign settlement, true⟩ : Exchange) ∈ t

section Handlers

variable {P : Platform} {cfg : Config} {action : Action} {t : Trace}

theorem anchorSettlement_ends {requestID : Hash} {payout : Payout} :
    Ends t (anchorSettlement P requestID payout) fun t settlement =>
      (⟨.sign settlement, true⟩ : Exchange) ∈ t := by
  refine Ends.ask fun s => Ends.orElse fun pending _ => Ends.ask fun now => Ends.ask fun signed => ?_
  refine Ends.attempt fun _ hsigned => ?_
  cases signed with
  | true => exact Fallible.Obeys.pure List.mem_cons_self
  | false => exact absurd rfl (rejectIf_eq_ok.mp hsigned)

/-- The anchor that was drawn up is the answer. -/
theorem ends_anchor {requestID : Hash} {payout : Payout} :
    Ends t (anchorSettlement P requestID payout >>= fun anchor => pure (.anchor anchor))
      AnchorSigned := by
  refine Fallible.Obeys.bind anchorSettlement_ends fun t anchor hsigned => ?_
  refine Fallible.Obeys.pure fun settlement heq => ?_
  cases heq
  exact hsigned

/-- No anchor is answered. -/
theorem ends_other {α : Type} (x : Handler α) {reply : α → Reply}
    (h : ∀ a settlement, reply a ≠ .anchor settlement) :
    Ends t (x >>= fun a => pure (reply a)) AnchorSigned :=
  Ends.after x fun _ a => Fallible.Obeys.pure fun settlement heq => absurd heq (h a settlement)

theorem processInstruction_anchorSigned : Ends t (processInstruction P cfg action) AnchorSigned := by
  refine Ends.orElse fun df _ => Ends.rejectIf ?_
  refine Ends.ite (fun _ => ?_) fun _ => ?_
  · refine Ends.attempt fun _ _ => Ends.attempt fun _ _ => Ends.after _ fun t _ => ?_
    exact ends_other _ (by intro _ _; nofun)
  refine Ends.ite (fun _ => ?_) fun _ => ?_
  · refine Ends.attempt fun _ _ => Ends.orElse fun _ _ => Ends.orElse fun _ _ => ?_
    refine Ends.rejectIf (Ends.after _ fun t _ => Ends.orElse fun _ _ => ?_)
    exact Ends.after _ fun t _ => ends_anchor
  refine Ends.ite (fun _ => ?_) fun _ => ?_
  · refine Ends.attempt fun _ _ => Ends.attempt fun _ _ => Ends.after _ fun t _ => ?_
    refine Ends.ask fun s => Ends.orElse fun _ _ => ?_
    exact Ends.after _ fun t _ => ends_anchor
  refine Ends.ite (fun _ => ?_) fun _ => ?_
  · exact Ends.attempt fun _ _ => Ends.after _ fun t _ => ends_anchor
  refine Ends.ite (fun _ => ?_) fun _ => trivial
  exact Ends.attempt fun _ _ => Ends.after _ fun t _ => ends_other _ (by intro _ _; nofun)

theorem processDirect_anchorSigned : Ends t (processDirect P cfg action) AnchorSigned := by
  refine Ends.orElse fun di _ => Ends.rejectIf ?_
  refine Ends.ite (fun _ => ?_) fun _ => ?_
  · refine Ends.orElse fun payload _ => Ends.after _ fun t read => Ends.attempt fun _ _ => ?_
    exact Ends.ask fun answer => Ends.attempt fun _ _ => Fallible.Obeys.pure (by intro _; nofun)
  refine Ends.ite (fun _ => ?_) fun _ => ?_
  · exact Ends.ask fun s => Ends.orElse fun pending _ => Ends.rejectIf ends_anchor
  refine Ends.ite (fun _ => ?_) fun _ => ?_
  · refine Ends.orElse fun payload _ => Ends.after _ fun t _ => Ends.attempt fun asset _ => ?_
    refine Ends.ask fun answer => ?_
    cases answer with
    | ok u => exact ends_other _ (by intro _ _; nofun)
    | error cause =>
        exact Ends.ite (fun _ => Fallible.Obeys.pure (by intro _; nofun)) fun _ => trivial
  · refine Ends.orElse fun plain _ => Ends.orElse fun req _ => Ends.after _ fun t _ => ?_
    refine Ends.after _ fun t performed => Ends.after _ fun t anchor => Ends.orElse fun _ _ => ?_
    exact Fallible.Obeys.pure (by intro _; nofun)

theorem processAction_anchorSigned (P : Platform) (cfg : Config) (action : Action) :
    Ends [] (processAction P cfg action) AnchorSigned := by
  unfold processAction
  cases action.actionType with
  | instruction => exact processInstruction_anchorSigned
  | direct => exact processDirect_anchorSigned
  | other => trivial

end Handlers

section Systems

variable {S : Setup} {w w' : World}

/-- What a handler was told is signed, is signed. -/
def World.Signs (w : World) : Prop :=
  ∀ (pid : Nat) (h : Started), w.handlers[pid]? = some h → ∀ settlement,
    (⟨.sign settlement, true⟩ : Exchange) ∈ h.trace → settlement ∈ w.signed

theorem respond_signs {pid : Nat} {started : Started} {a : Answer} {r : Request}
    {settlement : Settlement}
    (h : (⟨.sign settlement, true⟩ : Exchange) = ⟨r, (w.respond S pid started a r).2⟩) :
    settlement ∈ (w.respond S pid started a r).1.signed := by
  cases r with
  | sign asked =>
      obtain ⟨hasked, hanswer⟩ := Process.Exchange.mk.inj h
      cases hasked
      have hreturned : a.signing = .returned := of_decide_eq_true (eq_of_heq hanswer).symm
      simp [World.respond, hreturned]
  | _ => cases h

theorem World.Signs.step {move : Move} (h : w.Signs) (hw : w.step S move = .ok w') :
    w'.Signs := by
  have hsigned := (step_extends hw).signed
  intro pid started hget settlement hmem
  rcases step_handlers hw hget with ⟨_, hbefore, rfl⟩ | ⟨_, htrace, _⟩ |
    ⟨a, before, r, k, rfl, hbefore, hp, rfl⟩
  · exact hsigned.subset (h pid started hbefore settlement hmem)
  · rw [htrace] at hmem
    cases hmem
  · rcases List.mem_cons.mp hmem with heq | hmem
    · obtain ⟨_, _, _, hget', _, hp', rfl⟩ := advance_ok hw
      rw [hbefore] at hget'
      cases hget'
      rw [hp] at hp'
      cases hp'
      exact respond_signs heq
    · exact hsigned.subset (h pid before hbefore settlement hmem)

theorem signs_worldAfter (S : Setup) (moves : List Move) : (worldAfter S moves).Signs :=
  Machine.invariant (fun _ _ _ h hw => h.step hw) (fun pid h hget => by simp at hget) moves

/-- **An anchor that FCC has for a submission was signed.** -/
theorem outcome_signed {S : Setup} {moves : List Move} {id : Hash} {settlement : Settlement}
    (h : (worldAfter S moves).outcome id = some (.ok (.anchor settlement))) :
    settlement ∈ (worldAfter S moves).signed := by
  unfold World.outcome at h
  obtain ⟨started, hfind, hdone⟩ := Option.bind_eq_some_iff.mp h
  obtain ⟨pid, hpid, hget⟩ := List.getElem_of_mem (List.mem_of_find?_eq_some hfind)
  have hget : (worldAfter S moves).handlers[pid]? = some started := by
    rw [List.getElem?_eq_getElem hpid, hget]
  have hreturned : started.process = .done (.ok (.anchor settlement)) := by
    cases hp : started.process with
    | done r => simp only [hp, Option.some.injEq] at hdone; rw [hdone]
    | call r k => simp [hp] at hdone
  have hanchors := (traced_worldAfter S moves).returned hget
    (processAction_anchorSigned S.platform S.config started.action) hreturned
  exact signs_worldAfter S moves pid started hget settlement (hanchors settlement rfl)

end Systems

/-! ### What the relayer is told -/

/-- The call that the move answers, and the answer; the relayer may stop in the turn it begins. -/
def Deployment.exchange (D : Site) (d : Deployment) : DeploymentMove → Option Relayer.Exchange
  | .serve i _ served | .torn _ (.serve i _ served) =>
      (d.awaits i).bind fun r => (d.answer D served r).map fun answer => ⟨r, answer⟩
  | .fail i _ error | .torn _ (.fail i _ error) => (d.awaits i).map fun r => ⟨r, .error error⟩
  | _ => none

/-- The answers of the run, the latest first. -/
def exchanges (D : Site) (moves : List DeploymentMove) : Relayer.Trace :=
  Machine.observations (Deployment.step D) (Deployment.exchange D) {} moves

/-- The vault that the deployment has after the moves. -/
def vaultAfter (D : Site) (moves : List DeploymentMove) : Vault :=
  (deploymentAfter D moves).world.vault

namespace Relayer

/-- The calls that were awaited. -/
def awaited (t : Trace) : Trace := t.filter fun x => !x.request.isUpdate

/-- What is left of a call of `process` is what the deployment's latest answers lead to. -/
def Drain.Told (D : Site) (moves : List DeploymentMove) (drain : Drain) : Prop :=
  ∃ job t, After (Relayer.process job).run t drain.process ∧ awaited t <+: exchanges D moves

/-- The drain has just begun on a job. -/
def Drain.Begun (drain : Drain) : Prop :=
  ∃ now store job, drain.process = (turn now store (Relayer.process job).run).2

section Turns

variable {now tie : Nat} {o o' exhausted : Orchestrator} {drain : Drain}

/-- A turn only adds updates to the trace. -/
theorem turn_awaited (now : Nat) {p q : Processing} :
    ∀ {s : Store} {t : Trace}, After p t q →
      ∃ t', After p t' (turn now s q).2 ∧ awaited t' = awaited t := by
  induction q with
  | done r => exact fun {s t} h => ⟨t, h, rfl⟩
  | call r k ih =>
      intro s t h
      cases r with
      | update id patch =>
          simp only [turn]
          cases s.updateJob id patch now with
          | ok result =>
              obtain ⟨t', hafter, heq⟩ := ih (.ok result.1) (s := result.2) (h.answer _)
              exact ⟨t', hafter, heq⟩
          | error cause =>
              obtain ⟨t', hafter, heq⟩ := ih (.error cause.message) (s := s) (h.answer _)
              exact ⟨t', hafter, heq⟩
      | _ => exact ⟨t, h, rfl⟩

theorem Drain.Begun.told (h : drain.Begun) (D : Site) (moves : List DeploymentMove) :
    drain.Told D moves := by
  obtain ⟨now, store, job, hprocess⟩ := h
  obtain ⟨t, hafter, heq⟩ := turn_awaited now (s := store)
    (show After (Relayer.process job).run [] (Relayer.process job).run from rfl)
  refine ⟨job, t, by rw [hprocess]; exact hafter, ?_⟩
  rw [heq]
  exact List.nil_prefix

theorem nextJob_begun (h : drain ∈ (o.nextJob now tie exhausted).drains) :
    drain ∈ o.drains ∨ drain ∈ exhausted.drains ∨ drain.Begun := by
  unfold Orchestrator.nextJob at h
  cases hnext : o.store.nextRunnableJob tie with
  | none => rw [hnext] at h; exact Or.inr (Or.inl h)
  | some job =>
      rw [hnext] at h
      rcases List.mem_append.mp h with hmem | hmem
      · exact Or.inl hmem
      · rw [List.mem_singleton.mp hmem]
        exact Or.inr (Or.inr ⟨now, _, job, rfl⟩)

theorem round_begun (h : drain ∈ (o.round now tie).drains) : drain ∈ o.drains ∨ drain.Begun := by
  rcases nextJob_begun h with hmem | hmem | hbegun
  · exact Or.inl hmem
  · exact Or.inl hmem
  · exact Or.inr hbegun

theorem wake_begun (h : drain ∈ (o.wake now tie).drains) : drain ∈ o.drains ∨ drain.Begun := by
  unfold Orchestrator.wake at h
  dsimp only at h
  split at h
  · exact Or.inl h
  · exact round_begun (o := { o with wakeRequested := true, running := true }) h

theorem resume_begun (h : drain ∈ (o.resume now tie).drains) : drain ∈ o.drains ∨ drain.Begun := by
  rcases nextJob_begun h with hmem | hmem | hbegun
  · exact Or.inl hmem
  · split at hmem
    · exact round_begun hmem
    · exact Or.inl hmem
  · exact Or.inr hbegun

/-- A turn that nothing awaited begins may begin on a job. -/
theorem step_begun {t : Turn} (hentry : ∀ i answer, t.entry ≠ .answered i answer)
    (hstep : o.step t = .ok o') (h : drain ∈ o'.drains) : drain ∈ o.drains ∨ drain.Begun := by
  rcases Orchestrator.step_cases hstep with ⟨store, rfl⟩ | ⟨i, answer, ht, _⟩ | ⟨i, _, hprocessed⟩
  · exact wake_begun (o := { o with store }) h
  · exact absurd ht (hentry i answer)
  · obtain ⟨d, r, hd, hp, ⟨_, rfl⟩ | ⟨e, _, rfl⟩⟩ := Orchestrator.processed_ok hprocessed
    · rcases resume_begun h with hmem | hbegun
      · exact Or.inl (List.mem_of_mem_eraseIdx hmem)
      · exact Or.inr hbegun
    · exact Or.inl (List.mem_of_mem_eraseIdx h)

end Turns

end Relayer

section Deployments

open Relayer

variable {D : Site} {d d' : Deployment} {moves : List DeploymentMove}

/-- Every drain has been told what the run answered it. -/
def Deployment.Told (D : Site) (moves : List DeploymentMove) (d : Deployment) : Prop :=
  ∀ drain ∈ d.relayer.drains, drain.Told D moves

/-- An answer takes the drain that awaits it on. -/
theorem Deployment.Told.answered {i now : Nat} {answer : (r : Ask) → Answered r}
    {relayer : Orchestrator} (h : d.Told D moves) (hsound : Relayer.Sound False d.relayer)
    (hstep : d.relayer.answered now i answer = .ok relayer) {moves' : List DeploymentMove}
    (hexchanges : ∀ r, d.awaits i = some r →
      exchanges D moves' = ⟨r, answer r⟩ :: exchanges D moves) :
    ∀ drain ∈ relayer.drains, drain.Told D moves' := by
  obtain ⟨before, r, k, hd, hp, rfl⟩ := Orchestrator.answered_ok hstep
  have hawaits : d.awaits i = some r := by
    simp [Deployment.awaits, hd, hp]
  obtain ⟨_, hstands⟩ := hsound.standing before (List.mem_of_getElem? hd)
  rw [hp] at hstands
  obtain ⟨job, t, hafter, hlatest⟩ := h before (List.mem_of_getElem? hd)
  rw [hp] at hafter
  obtain ⟨t', hafter', heq⟩ := turn_awaited now (s := d.relayer.store) (hafter.answer (answer r))
  have hcons : awaited (⟨r, answer r⟩ :: t) = ⟨r, answer r⟩ :: awaited t := by
    simp [awaited, hstands.1]
  intro drain hmem
  simp only [Orchestrator.proceed, (hsound.turning hd).alone, List.nil_append,
    List.mem_singleton] at hmem
  rw [hmem]
  refine ⟨job, t', hafter', ?_⟩
  rw [heq, hexchanges r hawaits, hcons]
  exact (List.prefix_cons_inj _).mpr hlatest

theorem Deployment.Told.step {m : DeploymentMove} (h : (deploymentAfter D moves).Told D moves)
    (hstep : (deploymentAfter D moves).step D m = .ok d') : d'.Told D (moves ++ [m]) := by
  have hsound := (assembled_after D moves).sound
  have hexchanges : exchanges D (moves ++ [m]) =
      ((deploymentAfter D moves).exchange D m).toList ++ exchanges D moves :=
    Machine.observations_concat_ok hstep
  have hquiet : (deploymentAfter D moves).exchange D m = none → ∀ drain : Drain,
      drain.Told D moves → drain.Told D (moves ++ [m]) := by
    intro hnone drain htold
    rw [Drain.Told, hexchanges, hnone]
    exact htold
  cases m with
  | system move =>
      obtain ⟨world, _, rfl⟩ := move_ok hstep
      exact fun drain hmem => hquiet rfl drain (h drain hmem)
  | turn t =>
      obtain ⟨hentry, relayer, hrelayer, rfl⟩ := turn_ok hstep
      intro drain hmem
      rcases step_begun hentry hrelayer hmem with hbefore | hbegun
      · exact hquiet rfl drain (h drain hbefore)
      · exact hbegun.told D _
  | accept i id =>
      obtain ⟨_, _, world, _, _, _, _, rfl⟩ := accept_ok hstep
      exact fun drain hmem => hquiet rfl drain (h drain hmem)
  | serve i now served =>
      obtain ⟨r, x, relayer, hawaits, hanswer, hrelayer, rfl⟩ := serve_ok hstep
      refine h.answered hsound hrelayer fun r' hr' => ?_
      rw [hawaits] at hr'
      cases hr'
      rw [hexchanges]
      simp [Deployment.exchange, hawaits, hanswer]
  | fail i now error =>
      obtain ⟨relayer, hrelayer, rfl⟩ := answered_ok hstep
      refine h.answered hsound hrelayer fun r hr => ?_
      rw [hexchanges]
      simp [Deployment.exchange, hr]
  | crash =>
      cases hstep
      intro drain hmem
      cases hmem
  | torn writes m =>
      cases hstep
      intro drain hmem
      cases hmem

/-- **What the relayer has been told is what the run answered it.**  Each call of `process` that has
not returned is what its program comes to by the run's latest answers. -/
theorem told_deploymentAfter (D : Site) (moves : List DeploymentMove) :
    (deploymentAfter D moves).Told D moves := by
  refine Machine.invariant_along ?_ ?_ (fun _ _ _ h hstep => h.step hstep) moves
  · intro drain hmem
    cases hmem
  · intro moves m cause h hstep drain hmem
    rw [Drain.Told, exchanges, Machine.observations_concat_error hstep]
    exact h drain hmem

/-! ### The deployment's system -/

/-- The system of a deployment after a run is the system after some moves of its own. -/
theorem exists_worldAfter (D : Site) (moves : List DeploymentMove) :
    ∃ own, (deploymentAfter D moves).world = worldAfter D.setup own := by
  have hkept : ∀ (d : Deployment) (m : DeploymentMove) (d' : Deployment),
      (∃ own, d.world = worldAfter D.setup own) → Deployment.step D d m = .ok d' →
      ∃ own, d'.world = worldAfter D.setup own := by
    rintro d m d' ⟨own, hworld⟩ hstep
    rcases step_world hstep with heq | ⟨move, hmove⟩
    · exact ⟨own, heq.trans hworld⟩
    · refine ⟨own ++ [move], ?_⟩
      rw [hworld] at hmove
      rw [worldAfter, Machine.run_append]
      exact (Machine.next_ok hmove).symm
  exact Machine.invariant hkept ⟨[], rfl⟩ moves

theorem extends_deploymentAfter (D : Site) {before moves : List DeploymentMove}
    (h : before <+: moves) :
    Extends (deploymentAfter D before).world (deploymentAfter D moves).world := by
  obtain ⟨rest, rfl⟩ := h
  have hkept : ∀ (d : Deployment) (m : DeploymentMove) (d' : Deployment),
      Extends (deploymentAfter D before).world d.world → Deployment.step D d m = .ok d' →
      Extends (deploymentAfter D before).world d'.world := by
    intro d m d' hext hstep
    rcases step_world hstep with heq | ⟨move, hmove⟩
    · rw [heq]; exact hext
    · exact hext.trans (step_extends hmove)
  rw [deploymentAfter, deploymentAfter, Machine.run_append]
  exact Machine.invariant hkept (Extends.refl _) rest

/-- What is answered without an error is answered from the system. -/
theorem exchange_ok {m : DeploymentMove} {r : Ask} {a : r.Value}
    (h : d.exchange D m = some ⟨r, .ok a⟩) : ∃ served, d.answer D served r = some (.ok a) := by
  have hserved : ∀ {i : Nat} {served : Served}, ((d.awaits i).bind fun r' =>
      (d.answer D served r').map fun x => (⟨r', x⟩ : Relayer.Exchange)) = some ⟨r, .ok a⟩ →
        ∃ served, d.answer D served r = some (.ok a) := by
    intro i served h
    obtain ⟨r', _, hanswer⟩ := Option.bind_eq_some_iff.mp h
    obtain ⟨answer, hanswer, heq⟩ := Option.map_eq_some_iff.mp hanswer
    cases heq
    exact ⟨served, hanswer⟩
  have hfailed : ∀ {i : Nat} {error : String},
      ((d.awaits i).map fun r' => (⟨r', .error error⟩ : Relayer.Exchange)) ≠ some ⟨r, .ok a⟩ := by
    intro i error h
    obtain ⟨r', _, heq⟩ := Option.map_eq_some_iff.mp h
    cases heq
  unfold Deployment.exchange at h
  split at h
  · exact hserved h
  · exact hserved h
  · exact absurd h hfailed
  · exact absurd h hfailed
  · cases h

end Deployments

/-! ### What a recovery finds -/

namespace Relayer

/-- `recoverPendingAnchor`, as far as it asks: the settlement it is given, and the vault's sequence
number and root. -/
def recoveredState : Relay (Settlement × (Nat × Hash)) := do
  let recoveryID ← submitJson "RECOVER_ANCHOR" .recoverAnchor
  let recovery ← poll (some recoveryID) .submit
  requireSuccess "anchor recovery" recovery
  let anchor ← decode recovery.data
  let state ← anchorState
  let settlement ← Fallible.ofExcept (anchorSettlement anchor)
  return (settlement, state)

theorem recoverPendingAnchor_eq :
    recoverPendingAnchor = recoveredState >>= fun found => settleRecovered found.1 found.2 := by
  simp only [recoverPendingAnchor, recoveredState, bind_assoc, pure_bind]

/-- The branch that throws is that of `Diverges`; each of the others begins with a call. -/
theorem settleRecovered_throws {settlement : Settlement} {state : Nat × Hash} :
    settleRecovered settlement state =
        throw "vault anchor diverges from the recoverable FCC checkpoint" ↔
      Diverges settlement state := by
  unfold settleRecovered
  by_cases hprevious : state.1 = settlement.previousSequence ∧ state.2 = settlement.previousRoot
  · rw [decide_eq_true hprevious]
    exact ⟨fun h => (nomatch congrArg ExceptT.run h), fun h => absurd hprevious h.1⟩
  · by_cases hnext : state.1 = settlement.nextSequence ∧ state.2 = settlement.nextRoot
    · rw [decide_eq_false hprevious, decide_eq_true hnext]
      exact ⟨fun h => (nomatch congrArg ExceptT.run h), fun h => absurd hnext h.2⟩
    · rw [decide_eq_false hprevious, decide_eq_false hnext]
      exact ⟨fun _ => ⟨hprevious, hnext⟩, fun _ => rfl⟩

/-- Whatever a program is answered, it returns what meets `ok`. -/
abbrev Returns {α : Type} (t : Trace) (x : Relay α) (ok : Trace → α → Prop) : Prop :=
  Fallible.Obeys (fun _ _ => True) ok (fun _ _ => True) t x

section Returns

variable {α β : Type} {t : Trace} {out : Trace → β → Prop}

theorem Returns.ofExcept {x : Except String α} {f : α → Relay β}
    (h : ∀ a, x = .ok a → Returns t (f a) out) : Returns t (Fallible.ofExcept x >>= f) out :=
  Fallible.Obeys.ofExcept (fun _ _ => trivial) h

theorem Returns.ask {r : Ask} {f : r.Value → Relay β}
    (h : ∀ a, Returns (⟨r, .ok a⟩ :: t) (f a) out) : Returns t (Relay.ask r >>= f) out := by
  have hanswered : ∀ x : Answered r,
      Returns (⟨r, x⟩ :: t) (Fallible.ofExcept x >>= f) out := by
    intro x
    refine Returns.ofExcept fun a ha => ?_
    rw [ha]
    exact h a
  exact ⟨trivial, hanswered⟩

end Returns

/-- The two chain reads, the latest first. -/
def stateAnswers (sequenceFirst : Bool) (state : Nat × Hash) : Trace :=
  if sequenceFirst then
    [⟨.stateRoot, .ok state.2⟩, ⟨.stateSequence, .ok state.1⟩, ⟨.sequenceFirst, .ok true⟩]
  else
    [⟨.stateSequence, .ok state.1⟩, ⟨.stateRoot, .ok state.2⟩, ⟨.sequenceFirst, .ok false⟩]

/-- The answers of a recovery that is given the settlement and reads the state. -/
def recoveryAnswers (id : Hash) (log : String) (settlement : Settlement) (sequenceFirst : Bool)
    (state : Nat × Hash) : Trace :=
  stateAnswers sequenceFirst state ++
    [⟨.poll (some id) .submit, .ok { status := 1, log, data := some (.ok (.anchor settlement)) }⟩,
      ⟨.direct "RECOVER_ANCHOR" (.json .recoverAnchor), .ok id⟩]

section Answers

variable {t : Trace} {settlement : Settlement} {state : Nat × Hash}

/-- A poll that succeeded with a settlement. -/
theorem recovery_eq {result : ActionResult} {anchor : Reply}
    (hstatus : Outcome.rejectIf (result.status ≠ 1)
      (orText result.log ("anchor recovery" ++ " returned status " ++ toString result.status)) =
        .ok ())
    (hdata : result.data.getD (.error "FCC result did not include data") = .ok anchor)
    (hanchor : anchorSettlement anchor = .ok settlement) :
    result = { status := 1, log := result.log, data := some (.ok (.anchor settlement)) } := by
  obtain ⟨status, log, data⟩ := result
  obtain rfl : status = 1 := not_not.mp (rejectIf_eq_ok.mp hstatus)
  cases data with
  | none => cases hdata
  | some data =>
      obtain rfl : data = .ok anchor := hdata
      cases anchor with
      | anchor told => cases hanchor; rfl
      | _ => cases hanchor

theorem anchorState_returns (t : Trace) :
    Returns t anchorState fun t' state => ∃ sequenceFirst,
      t' = stateAnswers sequenceFirst state ++ t := by
  refine Returns.ask fun sequenceFirst => ?_
  cases sequenceFirst with
  | true =>
      exact Returns.ask fun sequence => Returns.ask fun root => Fallible.Obeys.pure ⟨true, rfl⟩
  | false =>
      exact Returns.ask fun root => Returns.ask fun sequence => Fallible.Obeys.pure ⟨false, rfl⟩

theorem recoveredState_returns :
    Returns [] recoveredState fun t found => ∃ id log sequenceFirst,
      t = recoveryAnswers id log found.1 sequenceFirst found.2 := by
  refine Returns.ask fun id => Returns.ask fun recovery => ?_
  refine Returns.ofExcept fun _ hstatus => Returns.ofExcept fun anchor hdata => ?_
  refine Fallible.Obeys.bind (anchorState_returns _) ?_
  rintro _ state ⟨sequenceFirst, rfl⟩
  refine Returns.ofExcept fun settlement hanchor => Fallible.Obeys.pure ?_
  exact ⟨id, recovery.log, sequenceFirst, by rw [recovery_eq hstatus hdata hanchor]; rfl⟩

/-- **A recovery has found the settlement and the state when it has been answered so.** -/
theorem recoveredState_after :
    After recoveredState.run t (.done (.ok (settlement, state))) ↔
      ∃ id log sequenceFirst, t = recoveryAnswers id log settlement sequenceFirst state := by
  constructor
  · exact fun h => Process.Obeys.after recoveredState_returns h
  · rintro ⟨id, log, sequenceFirst, rfl⟩
    cases sequenceFirst with
    | true => exact ⟨_, ⟨_, ⟨_, ⟨_, ⟨_, rfl, rfl⟩, rfl⟩, rfl⟩, rfl⟩, rfl⟩
    | false => exact ⟨_, ⟨_, ⟨_, ⟨_, ⟨_, rfl, rfl⟩, rfl⟩, rfl⟩, rfl⟩, rfl⟩

/-- A call of `process` that has begun to recover and has been answered so goes on with what it
found; what it was answered since is all awaited. -/
theorem process_finds {job : Job} {earlier : Trace}
    {rest : Except String Unit → Processing}
    (hbegun : After (Relayer.process job).run earlier (recoverPendingAnchor.run >>= rest))
    (hfound : After recoveredState.run t (.done (.ok (settlement, state)))) :
    After (Relayer.process job).run (t ++ earlier)
        ((settleRecovered settlement state).run >>= rest) ∧
      awaited (t ++ earlier) = t ++ awaited earlier := by
  constructor
  · rw [recoverPendingAnchor_eq] at hbegun
    exact hbegun.trans ((hfound.bind _).bind rest)
  · obtain ⟨id, log, sequenceFirst, rfl⟩ := recoveredState_after.mp hfound
    cases sequenceFirst <;> rfl

end Answers

end Relayer

/-! ### Where the recovery finds the vault -/

section Reads

open Relayer

variable {D : Site} {moves before : List DeploymentMove} {settlement : Settlement}

/-- A sequence number that was read was the vault's. -/
theorem sequence_of_exchange {m : DeploymentMove} {sequence : Nat}
    (h : (deploymentAfter D before).exchange D m = some ⟨.stateSequence, .ok sequence⟩) :
    sequence = (vaultAfter D before).stateSequence := by
  obtain ⟨_, hanswer⟩ := exchange_ok h
  cases hanswer
  rfl

theorem root_of_exchange {m : DeploymentMove} {root : Hash}
    (h : (deploymentAfter D before).exchange D m = some ⟨.stateRoot, .ok root⟩) :
    root = (vaultAfter D before).stateRoot := by
  obtain ⟨_, hanswer⟩ := exchange_ok h
  cases hanswer
  rfl

/-- An anchor that was polled was signed. -/
theorem signed_of_exchange {m : DeploymentMove} {id : Hash} {tag : SubmissionTag} {status : Nat}
    {log : String} (h : (deploymentAfter D before).exchange D m = some ⟨.poll (some id) tag,
      .ok { status, log, data := some (.ok (.anchor settlement)) }⟩) :
    settlement ∈ (deploymentAfter D before).world.signed := by
  obtain ⟨_, hanswer⟩ := exchange_ok h
  obtain ⟨r, houtcome, heq⟩ := Option.map_eq_some_iff.mp hanswer
  obtain ⟨own, hworld⟩ := exists_worldAfter D before
  cases r with
  | error e => cases heq
  | ok reply =>
      cases heq
      rw [hworld] at houtcome ⊢
      exact outcome_signed houtcome

/-- A vault that has executed nothing in between is the same. -/
theorem vault_still {later : List DeploymentMove} (hlater : before <+: later)
    (hsequence : (vaultAfter D later).stateSequence = (vaultAfter D before).stateSequence) :
    (vaultAfter D later).state = (vaultAfter D before).state := by
  have hnow := (assembled_after D later).linked.vault_rooted
  have hbefore := (assembled_after D before).linked.vault_rooted.mono
    (extends_deploymentAfter D hlater)
  rw [show (deploymentAfter D later).world.vault.stateSequence = _ from hsequence] at hnow
  exact Prod.ext hsequence (hnow.unique hbefore)

end Reads

/-- The two reads of a state, the vault being `first` at the one and `second` at the other. -/
def ReadFrom (first second : Vault) (state : Nat × Hash) : Prop :=
  state = (first.stateSequence, second.stateRoot) ∨ state = (second.stateSequence, first.stateRoot)

/-- At the end of the run a recovery has found the settlement and the state. -/
def Finds (D : Site) (moves : List DeploymentMove) (settlement : Settlement) (state : Nat × Hash) :
    Prop :=
  ∃ t, t <+: exchanges D moves ∧ After Relayer.recoveredState.run t (.done (.ok (settlement, state)))

/-- Every call of `process` that gets there is such a recovery (`told_deploymentAfter` says what a
call has been told). -/
theorem finds_of_process {D : Site} {moves : List DeploymentMove} {settlement : Settlement}
    {state : Nat × Hash} {job : Relayer.Job} {earlier t : Relayer.Trace}
    {rest : Except String Unit → Relayer.Processing}
    (hbegun : After (Relayer.process job).run earlier
      (Relayer.recoverPendingAnchor.run >>= rest))
    (hfound : After Relayer.recoveredState.run t (.done (.ok (settlement, state))))
    (htold : Relayer.awaited (t ++ earlier) <+: exchanges D moves) :
    Finds D moves settlement state := by
  obtain ⟨_, hawaited⟩ := Relayer.process_finds hbegun hfound
  rw [hawaited] at htold
  exact ⟨t, (List.prefix_append t _).trans htold, hfound⟩

/-- The last answers of a run were given one after the other. -/
theorem exchanges_moments {D : Site} {moves : List DeploymentMove}
    {second first order recovery : Relayer.Exchange} {earlier : Relayer.Trace}
    (h : exchanges D moves = second :: first :: order :: recovery :: earlier) :
    ∃ atRecovery atFirst atSecond, atRecovery <+: atFirst ∧ atFirst <+: atSecond ∧
      atSecond <+: moves ∧
      (∃ m, (deploymentAfter D atRecovery).exchange D m = some recovery) ∧
      (∃ m, (deploymentAfter D atFirst).exchange D m = some first) ∧
      ∃ m, (deploymentAfter D atSecond).exchange D m = some second := by
  have hchronicle : Machine.Chronicle (Deployment.step D)
      (fun x d m => d.exchange D m = some x) {} (exchanges D moves) moves :=
    Machine.chronicle_observations _ _ _
  rw [h] at hchronicle
  obtain ⟨atSecond, m₂, h₂, hsees₂, atFirst, m₁, h₁, hsees₁, atOrder, m₀, h₀, _,
    atRecovery, m, hm, hsees, _⟩ := hchronicle
  have hbefore : ∀ {ms rest : List DeploymentMove} {m : DeploymentMove},
      ms ++ [m] <+: rest → ms <+: rest :=
    fun hle => (List.prefix_append _ _).trans hle
  exact ⟨atRecovery, atFirst, atSecond, (hbefore hm).trans (hbefore h₀), hbefore h₁, hbefore h₂,
    ⟨m, hsees⟩, ⟨m₁, hsees₁⟩, m₂, hsees₂⟩

/-- Where it was when it was answered: the settlement had been signed by the first read. -/
theorem Finds.reads {D : Site} {moves : List DeploymentMove} {settlement : Settlement}
    {state : Nat × Hash} (h : Finds D moves settlement state) :
    ∃ first second, first <+: second ∧ second <+: moves ∧
      ReadFrom (vaultAfter D first) (vaultAfter D second) state ∧
      settlement ∈ (deploymentAfter D first).world.signed := by
  obtain ⟨t, ⟨earlier, htrace⟩, hafter⟩ := h
  obtain ⟨id, log, sequenceFirst, rfl⟩ := Relayer.recoveredState_after.mp hafter
  cases sequenceFirst with
  | true =>
      obtain ⟨_, first, second, hrecovery, hle, hsecond, ⟨_, hsees⟩, ⟨_, hsequence⟩, _, hroot⟩ :=
        exchanges_moments htrace.symm
      refine ⟨first, second, hle, hsecond, Or.inl (Prod.ext ?_ ?_), ?_⟩
      · exact sequence_of_exchange hsequence
      · exact root_of_exchange hroot
      · exact (extends_deploymentAfter D hrecovery).signed.subset (signed_of_exchange hsees)
  | false =>
      obtain ⟨_, first, second, hrecovery, hle, hsecond, ⟨_, hsees⟩, ⟨_, hroot⟩, _, hsequence⟩ :=
        exchanges_moments htrace.symm
      refine ⟨first, second, hle, hsecond, Or.inr (Prod.ext ?_ ?_), ?_⟩
      · exact sequence_of_exchange hsequence
      · exact root_of_exchange hroot
      · exact (extends_deploymentAfter D hrecovery).signed.subset (signed_of_exchange hsees)

/-- **Ledger and vault never diverge, and a recovery that says so has read a moving vault.**  After
every run of the system the two are in step.  And wherever `recoverPendingAnchor` throws that they
diverge, the vault executed a settlement between its two reads, or had moved past the recovered one
before them. -/
theorem recovery_finds_vault (D : Site) :
    (∀ moves : List Move, InStep D.setup moves) ∧
      ∀ (moves : List DeploymentMove) (settlement : Settlement) (state : Nat × Hash),
        Finds D moves settlement state →
        Relayer.settleRecovered settlement state =
          throw "vault anchor diverges from the recoverable FCC checkpoint" →
        ∃ first second, first <+: second ∧ second <+: moves ∧
          ReadFrom (vaultAfter D first) (vaultAfter D second) state ∧
          ((vaultAfter D first).stateSequence < (vaultAfter D second).stateSequence ∨
            settlement.nextSequence < (vaultAfter D first).stateSequence) := by
  refine ⟨inStep_worldAfter D.setup, fun moves settlement state hfound hthrows => ?_⟩
  have hdiverges := Relayer.settleRecovered_throws.mp hthrows
  obtain ⟨first, second, hle, hsecond, hstate, hsigned⟩ := hfound.reads
  refine ⟨first, second, hle, hsecond, hstate, ?_⟩
  have hgrown : (vaultAfter D first).stateSequence ≤ (vaultAfter D second).stateSequence :=
    (extends_deploymentAfter D hle).sequence
  rcases Nat.lt_or_eq_of_le hgrown with hmoved | hstill
  · exact Or.inl hmoved
  · refine Or.inr (Nat.lt_of_not_le fun hreached => ?_)
    have hat : state = (vaultAfter D first).state := by
      obtain ⟨_, hroot⟩ := Prod.mk.inj (vault_still hle hstill.symm)
      rcases hstate with heq | heq
      · rw [heq, hroot, Vault.state]
      · rw [heq, ← hstill, Vault.state]
    rw [hat] at hdiverges
    exact (assembled_after D first).linked.not_diverges hsigned hreached hdiverges

/-! ### A recovery beside an execution -/

/-- A deposit is signed for but not executed, and the relayer, whose tick it has held up, is given a
settlement of its own. -/
def recoveryBegun : List DeploymentMove :=
  systemMoves (depositCommitted (sampleAddress 91) ++ sampleAdvance 0 3 ++ tickReceived 1) ++
    tickPolled ++ sampleSubmitted 5 2 4

/-- The deposit's own settlement. -/
def depositExecution : Move :=
  .execute (sampleTx 1 0) (depositCheckpoint (sampleAddress 91) 1 (sampleAddress 10))

/-- It is executed between the two reads of the recovery. -/
def tornRecovery : List DeploymentMove :=
  recoveryBegun ++ [sampleServed, sampleServed, .system depositExecution, sampleServed]

/-- It is executed and confirmed before them, and so is a withdrawal. -/
def overtakenRecovery : List DeploymentMove :=
  recoveryBegun ++
    systemMoves (depositExecution ::
      .receive (sampleSite.action (Bytes.Fixed.ofList 32 [200]) "ANCHOR_CONFIRMED"
        (.json (.anchorConfirmed 1 (Bytes.Fixed.ofList 32 [1])))) :: sampleAdvance 3 4 ++
      withdrawalCommitted 4 ++ sampleAdvance 4 3 ++
      [.execute (sampleTx 1 0) (sampleSettlement 1 .withdrawRequest
        (Hash.hex (Bytes.Fixed.ofList 32 [3])) 3
        { settlementType := .userWithdrawal, account := sampleAddress 10, token := sampleAddress 91
          amount := 100, destination := sampleAddress 11 })]) ++
    List.replicate 3 sampleServed

/-- The settlement that the relayer is given. -/
def recoveredCheckpoint : Settlement := depositCheckpoint (sampleAddress 91) 5 Address.zero

/-- In the run the recovery finds this state and throws that it diverges, and the job fails so. -/
structure CallsDiverged (moves : List DeploymentMove) (state : Nat × Hash) : Prop where
  finds : Finds sampleSite moves recoveredCheckpoint state
  throws : Relayer.settleRecovered recoveredCheckpoint state =
    throw "vault anchor diverges from the recoverable FCC checkpoint"
  recorded : ((deploymentAfter sampleSite moves).relayer.store.getJob "job").map
      (fun job => (job.status, job.error)) =
    some (.failed, some ("error: " ++ LedgerError.anchorPending.message ++
      "; anchor recovery failed: vault anchor diverges from the recoverable FCC checkpoint"))

/-- The recovery has found the state that its last answers tell. -/
theorem finds_of_answers {D : Site} {moves : List DeploymentMove} {settlement : Settlement}
    {state : Nat × Hash} {id : Hash} {log : String} {sequenceFirst : Bool}
    (h : Relayer.recoveryAnswers id log settlement sequenceFirst state <+: exchanges D moves) :
    Finds D moves settlement state :=
  ⟨_, h, Relayer.recoveredState_after.mpr ⟨id, log, sequenceFirst, rfl⟩⟩

/-- The branch is reached while ledger and vault are in step: once with the vault read before and
after an execution, and once with the vault past the settlement. -/
theorem recovery_calls_diverged :
    CallsDiverged tornRecovery (0, hexToHash (sampleRoot 1)) ∧
      CallsDiverged overtakenRecovery (2, hexToHash (sampleRoot 2)) := by
  have htorn : Relayer.recoveryAnswers (Bytes.Fixed.ofList 32 [5]) "ok" recoveredCheckpoint true
      (0, hexToHash (sampleRoot 1)) <+: exchanges sampleSite tornRecovery := by
    decide +kernel
  have hovertaken : Relayer.recoveryAnswers (Bytes.Fixed.ofList 32 [5]) "ok" recoveredCheckpoint
      true (2, hexToHash (sampleRoot 2)) <+: exchanges sampleSite overtakenRecovery := by
    decide +kernel
  refine ⟨⟨finds_of_answers htorn, ?_, by decide +kernel⟩,
    ⟨finds_of_answers hovertaken, ?_, by decide +kernel⟩⟩
  · exact Relayer.settleRecovered_throws.mpr (by decide +kernel)
  · exact Relayer.settleRecovered_throws.mpr (by decide +kernel)

end QuietLine
