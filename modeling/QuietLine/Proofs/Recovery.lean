/-
A settled anchor is confirmed by recovery.

While the anchor `p` stays pending and the vault stands at its next state, everything
that a handler started since can see of the two says so (`Saw`).  What the handlers of
RECOVER_ANCHOR and ANCHOR_CONFIRMED answer under that condition is a discipline of
each: the one returns a checkpoint of `p`, the other cannot return, because its call of
the engine would have cleared `p`.  So a recovery that has come to its end has seen the
condition broken, and once it is broken `p` does not come back.
-/
import QuietLine.Proofs.Anchors
import QuietLine.Proofs.Endings
import QuietLine.Proofs.Payouts

namespace QuietLine

open Process Outcome

/-! ### What a handler sees meanwhile -/

/-- The exchange is as it must be while `p` is pending, the vault at its next state, and everyone
answers. -/
def Saw (p : PendingAnchor) : Exchange → Prop
  | ⟨.state _, s⟩ => s.pendingAnchor = some p
  | ⟨.callVault .stateSequence, raw⟩ => raw = some (Bytes.bigEndian 32 p.nextSequence)
  | ⟨.callVault .stateRoot, raw⟩ => raw = some (hexToHash p.nextRoot).toList
  | ⟨.sign _, signed⟩ => signed = true
  | ⟨.confirmAnchor sequence root, _⟩ => ¬ (sequence = p.nextSequence ∧ equalFold p.nextRoot root)
  | _ => True

/-- So far every exchange was. -/
def SawAll (p : PendingAnchor) (t : Trace) : Prop := ∀ x ∈ t, Saw p x

theorem sawAll_antitone (p : PendingAnchor) : Fallible.Antitone (SawAll p) :=
  fun x _ h y hy => h y (List.mem_cons_of_mem x hy)

theorem Saw.of_cons {p : PendingAnchor} {x : Exchange} {t : Trace} (h : SawAll p (x :: t)) :
    Saw p x :=
  h x List.mem_cons_self

section Handlers

variable {D : Site} {p : PendingAnchor} {id : Hash}

/-- The state that is read has the anchor pending. -/
theorem pending_tells {β : Type} {post : Except HandlerError β → Prop} {t : Trace} {site : ReadSite}
    {err : HandlerError} {f : State → PendingAnchor → Handler β}
    (hf : ∀ s t, Fallible.Tells (SawAll p) post t (f s p)) :
    Fallible.Tells (SawAll p) post t (do
      let s ← Handler.perform (.state site)
      let pending ← Handler.orElse err s.pendingAnchor
      f s pending) := by
  refine Fallible.Tells.ask (sawAll_antitone p) fun s hs => ?_
  refine Fallible.Tells.ofExcept (a := p) ?_ (hf s _)
  rw [show State.pendingAnchor s = some p from Saw.of_cons hs]
  rfl

theorem checkpoint_tells {P : Platform} {requestID : Hash} {account : Address} {t : Trace} :
    Fallible.Tells (SawAll p) (fun r => ∃ a, r = .ok a ∧
      ∃ now, a = p.settlement P.keccak256 requestID (Payout.checkpoint account) now) t
      (checkpoint P requestID account) := by
  refine pending_tells fun s t => ?_
  refine Fallible.Tells.ask (sawAll_antitone p) fun now _ => ?_
  refine Fallible.Tells.ask (sawAll_antitone p) fun signed hsigned => ?_
  obtain rfl : signed = true := Saw.of_cons hsigned
  exact Fallible.Tells.pure ⟨_, rfl, now, rfl⟩

/-- RECOVER_ANCHOR answers with a checkpoint of the anchor, when its kind allows it. -/
theorem handleAnchorRecovery_tells {P : Platform} {action : Action}
    (hkind : p.kind.recoverable = true) :
    Fallible.Tells (SawAll p) (fun r => ∃ now, r = .ok (.anchor
      (p.settlement P.keccak256 action.id (Payout.checkpoint Address.zero) now))) []
      (handleAnchorRecovery P action) := by
  refine pending_tells fun s t => ?_
  refine Fallible.Tells.ofExcept (a := ()) (rejectIf_of_not (by simp [hkind])) ?_
  refine Fallible.Tells.bind (sawAll_antitone p) checkpoint_tells ?_
  intro a t hsettlement
  obtain ⟨now, rfl⟩ := hsettlement
  exact Fallible.Tells.pure ⟨now, rfl⟩

/-- Where its kind does not, RECOVER_ANCHOR is refused. -/
theorem handleAnchorRecovery_refused {P : Platform} {action : Action}
    (hkind : p.kind.recoverable = false) :
    Fallible.Tells (SawAll p) (fun r => r = .error .fundMovementPending) []
      (handleAnchorRecovery P action) := by
  refine pending_tells fun s t => ?_
  rw [hkind]
  exact fun _ => rfl

theorem readAnchorState_tells {t : Trace} :
    Fallible.Tells (SawAll p) (fun r => ∃ a, r = .ok a ∧ a =
      (some (Bytes.bigEndian 32 p.nextSequence), some (hexToHash p.nextRoot).toList)) t
      readAnchorState := by
  refine Fallible.Tells.ask (sawAll_antitone p) fun sequenceFirst _ => ?_
  cases sequenceFirst with
  | true =>
      refine Fallible.Tells.ask (sawAll_antitone p) fun sequence hsequence => ?_
      refine Fallible.Tells.ask (sawAll_antitone p) fun root hroot => ?_
      obtain rfl : sequence = _ := Saw.of_cons hsequence
      obtain rfl : root = _ := Saw.of_cons hroot
      exact Fallible.Tells.pure ⟨_, rfl, rfl⟩
  | false =>
      refine Fallible.Tells.ask (sawAll_antitone p) fun root hroot => ?_
      refine Fallible.Tells.ask (sawAll_antitone p) fun sequence hsequence => ?_
      obtain rfl : sequence = _ := Saw.of_cons hsequence
      obtain rfl : root = _ := Saw.of_cons hroot
      exact Fallible.Tells.pure ⟨_, rfl, rfl⟩

/-- A vault at this sequence number and root passes. -/
theorem checkAnchorState_at (sequence : UInt64) (root : String) :
    checkAnchorState sequence root
      (some (Bytes.bigEndian 32 sequence.toNat), some (hexToHash root).toList) = .ok () := by
  have hlen : (Bytes.bigEndian 32 sequence.toNat).length = 32 := Bytes.length_bigEndian 32 _
  have hfits : sequence.toNat < 256 ^ 32 := Nat.lt_trans sequence.toNat_lt (by decide)
  have hvalue : Bytes.ofBigEndian (Bytes.bigEndian 32 sequence.toNat) = sequence.toNat := by
    rw [Bytes.ofBigEndian_bigEndian, Nat.mod_eq_of_lt hfits]
  unfold checkAnchorState
  rw [Outcome.orElse, ok_bind, Outcome.orElse, ok_bind, rejectIf_of_not, ok_bind, rejectIf_of_not,
    ok_bind, rejectIf_of_not]
  · rw [Bytes.Fixed.ofList_toList]
    exact not_not.mpr rfl
  · exact not_not.mpr hvalue
  · rintro (h | h)
    · exact h hlen
    · exact h (List.Vector.toList_length _)

/-- ANCHOR_CONFIRMED for the anchor does not return: its call of the engine would have cleared the
anchor. -/
theorem handleAnchorConfirmation_tells {P : Platform} {message : List UInt8}
    {payload : AnchorConfirmedPayload} (hpayload : P.anchorConfirmedPayload message = some payload)
    (hsequence : payload.sequence.toNat = p.nextSequence) (hroot : payload.root = p.nextRoot) :
    Fallible.Tells (SawAll p) (fun _ => False) [] (handleAnchorConfirmation P message) := by
  unfold handleAnchorConfirmation
  rw [hpayload]
  refine Fallible.Tells.ofExcept (a := payload) rfl ?_
  refine Fallible.Tells.bind (sawAll_antitone p) readAnchorState_tells ?_
  intro read t hread
  have hchecked : checkAnchorState payload.sequence payload.root read = .ok () := by
    rw [hread, ← hsequence, ← hroot]
    exact checkAnchorState_at payload.sequence payload.root
  refine Fallible.Tells.ofExcept (a := ()) hchecked ?_
  refine Fallible.Tells.ask (sawAll_antitone p) fun answer hcleared => ?_
  exact absurd ⟨hsequence, by rw [hroot]; simp [equalFold]⟩ (Saw.of_cons hcleared)

/-- The handler that a direct submission reaches. -/
theorem processAction_direct (hD : D.Lawful) (command : String) (message : Relayer.Message) :
    processAction D.setup.platform D.setup.config (D.action id command message) =
      if toHash command = toHash "ANCHOR_CONFIRMED" then
        handleAnchorConfirmation D.setup.platform (D.bytes message)
      else if toHash command = toHash "RECOVER_ANCHOR" then
        handleAnchorRecovery D.setup.platform (D.action id command message)
      else if toHash command = toHash "RECOVER_DEPOSIT" then
        handleDepositRecovery D.setup.platform D.setup.config (D.action id command message)
          (D.bytes message)
      else
        processSigned D.setup.platform D.setup.config (D.action id command message)
          { opType := toHash "CREDIT", opCommand := toHash command, message := D.bytes message } := by
  have hparsed : D.setup.platform.directInstruction (D.action id command message).message =
      some { opType := toHash "CREDIT", opCommand := toHash command, message := D.bytes message } :=
    hD.wrap _
  show processDirect _ _ _ = _
  unfold processDirect
  rw [hparsed]
  rfl

end Handlers

/-! ### The system meanwhile -/

/-- The anchor has been cleared; it does not come back. -/
def ClearedOf (p : PendingAnchor) (s : State) : Prop :=
  p.nextSequence ≤ s.sequence ∧ s.pendingAnchor ≠ some p

/-- The anchor is pending and settled, and the handlers from number `n` on were started since. -/
structure Waiting (S : Setup) (p : PendingAnchor) (n : Nat) (w : World) : Prop where
  linked : Linked S w
  pending : w.ledger.pendingAnchor = some p
  vault : w.vault.At p.nextSequence p.nextRoot
  started : n ≤ w.handlers.length
  seen : ∀ (pid : Nat) (h : Started), n ≤ pid → w.handlers[pid]? = some h →
    (∀ x ∈ h.trace, Saw p x) ∧
      Process.After (processAction S.platform S.config h.action).run h.trace h.process

section Systems

variable {S : Setup} {p : PendingAnchor} {n : Nat} {w w' : World} {move : Move}

theorem Linked.later (h : Linked S w) (hw : w.step S move = .ok w') : Later w.ledger w'.ledger :=
  ((linked_step h hw).coherent.past_later (h.coherent.past.mono (step_extends hw))).2

theorem Waiting.sequence (h : Waiting S p n w) : p.nextSequence = w.ledger.sequence :=
  (h.linked.synchronised.pending p h.pending).2.1

theorem ClearedOf.step (h : ClearedOf p w.ledger) (hlinked : Linked S w)
    (hw : w.step S move = .ok w') : ClearedOf p w'.ledger := by
  have hlater := hlinked.later hw
  refine ⟨h.1.trans hlater.sequence, fun hp => h.2 ?_⟩
  have hseq := ((linked_step hlinked hw).synchronised.pending p hp).2.1
  exact (hlater.same (Nat.le_antisymm (hseq ▸ h.1) hlater.sequence)).2 p hp

/-- A handler's answer, while the anchor stays pending. -/
theorem Waiting.respond (h : Waiting S p n w) {pid : Nat} {started : Started} {a : Answer}
    (ha : a.Serves) {r : Request}
    (hpending : (w.respond S pid started a r).1.ledger.pendingAnchor = some p) :
    Saw p ⟨r, (w.respond S pid started a r).2⟩ := by
  obtain ⟨hstored, hreachable, hsigning⟩ := ha
  cases r with
  | state site => exact h.pending
  | callVault read =>
      cases read with
      | stateSequence =>
          show (if a.reachable = true then some (w.vault.view .stateSequence) else none) = _
          rw [if_pos hreachable, Vault.view, h.vault.1]
      | stateRoot =>
          show (if a.reachable = true then some (w.vault.view .stateRoot) else none) = _
          rw [if_pos hreachable, Vault.view, h.vault.2]
      | depositById depositID => trivial
  | sign settlement => exact decide_eq_true hsigning
  | confirmAnchor sequence root =>
      rintro ⟨rfl, hroot⟩
      have hok : confirmAnchor p.nextSequence root a.stored w.ledger =
          .ok { w.ledger with pendingAnchor := none } := by
        unfold confirmAnchor
        rw [h.pending]
        dsimp only
        rw [rejectIf_of_not (by simp [hroot]), ok_bind, rejectIf_of_not (by simp [hstored]), ok_bind]
        rfl
      let call : Call := { pid, action := started.action, trace := started.trace
                           event := .confirm p.nextSequence root a.stored }
      replace hpending : (w.call S call).1.ledger.pendingAnchor = some p := hpending
      replace hok : callStep S.host w.ledger call = _ := hok
      rcases call_cases S call w with ⟨s', hs', hcall⟩ | ⟨cause, hcause, _⟩
      · rw [hok] at hs'
        cases hs'
        rw [hcall] at hpending
        cases hpending
      · rw [hok] at hcause
        cases hcause
  | _ => trivial

theorem Extends.length_le (h : Extends w w') : w.handlers.length ≤ w'.handlers.length := by
  refine Nat.le_of_not_lt fun hlt => ?_
  obtain ⟨_, hget, _⟩ := h.handlers _ _ (List.getElem?_eq_getElem hlt)
  exact absurd (List.getElem?_eq_some_iff.mp hget).1 (Nat.lt_irrefl _)

/-- While the anchor is pending a move leaves everything waiting. -/
theorem Waiting.step (h : Waiting S p n w) (hserves : move.Serves)
    (hw : w.step S move = .ok w') : Waiting S p n w' ∨ ClearedOf p w'.ledger := by
  have hlinked := linked_step h.linked hw
  have hext := step_extends hw
  by_cases hpending : w'.ledger.pendingAnchor = some p
  · left
    have hvault : w'.vault.At p.nextSequence p.nextRoot := by
      obtain ⟨hnext, _, _, hat | hat⟩ := hlinked.synchronised.pending p hpending
      · have hbefore := h.vault.1
        have hafter := hat.1
        have hmono := hext.sequence
        omega
      · exact hat
    refine ⟨hlinked, hpending, hvault, h.started.trans hext.length_le, ?_⟩
    intro pid h' hpid hget'
    rcases step_handlers hw hget' with ⟨started, hget, rfl⟩ | ⟨_, htrace, hprocess⟩ |
      ⟨a, started, r, k, rfl, hget, hp, rfl⟩
    · exact h.seen pid h' hpid hget
    · rw [htrace, hprocess]
      exact ⟨by simp, rfl⟩
    · obtain ⟨hsaw, hafter⟩ := h.seen pid started hpid hget
      obtain ⟨_, _, _, hget₁, _, hp₁, rfl⟩ := advance_ok hw
      rw [hget] at hget₁
      cases hget₁
      rw [hp] at hp₁
      cases hp₁
      rw [hp] at hafter
      refine ⟨?_, hafter.answer _⟩
      intro x hx
      rcases List.mem_cons.mp hx with rfl | hx
      · exact h.respond hserves hpending
      · exact hsaw x hx
  · right
    exact ⟨by rw [h.sequence]; exact (h.linked.later hw).sequence, hpending⟩

end Systems

/-! ### The relayer meanwhile -/

/-- What FCC keeps of an action is what its handler told. -/
def Site.Answers (D : Site) (p : PendingAnchor) (command : String) (message : Relayer.Message)
    (id : Hash) (result : Relayer.ActionResult) : Prop :=
  ∃ r, result = D.result r ∧ ∀ post, Fallible.Tells (SawAll p) post []
    (processAction D.setup.platform D.setup.config (D.action id command message)) → post r

/-- The exchange of the relayer is as it must be while `p` is pending, the vault at its next state,
and everyone answers. -/
def Site.Fact (D : Site) (p : PendingAnchor) (t : Relayer.Trace) : Relayer.Exchange → Prop
  | ⟨.direct _ _, answer⟩ => ∃ id, answer = .ok id
  | ⟨.poll id _, answer⟩ => ∃ result, answer = .ok result ∧ ∀ id' command message, id = some id' →
      (⟨.direct command message, .ok id'⟩ : Relayer.Exchange) ∈ t →
      D.Answers p command message id' result
  | ⟨.stateSequence, answer⟩ => answer = .ok p.nextSequence
  | ⟨.stateRoot, answer⟩ => answer = .ok (hexToHash p.nextRoot)
  | ⟨.sequenceFirst, answer⟩ => ∃ first, answer = .ok first
  | _ => True

/-- So far every exchange was. -/
def Site.Told (D : Site) (p : PendingAnchor) : Relayer.Trace → Prop
  | [] => True
  | x :: t => D.Fact p t x ∧ D.Told p t

section Relay

open Relayer

variable {D : Site} {p : PendingAnchor} {t : Relayer.Trace}

theorem told_antitone (D : Site) (p : PendingAnchor) : Fallible.Antitone (D.Told p) :=
  fun _ _ h => h.2

/-- An awaited call is answered. -/
theorem ask_tells {β : Type} {post : Except String β → Prop} {r : Ask} {f : r.Value → Relay β}
    (hfact : ∀ answer, D.Fact p t ⟨r, answer⟩ → ∃ a, answer = .ok a)
    (hf : ∀ a, D.Told p (⟨r, .ok a⟩ :: t) →
      Fallible.Tells (D.Told p) post (⟨r, .ok a⟩ :: t) (f a)) :
    Fallible.Tells (D.Told p) post t (Relay.ask r >>= f) := by
  refine Fallible.Tells.ask (told_antitone D p) (f := fun x => Fallible.ofExcept x >>= f) ?_
  intro answer htold
  obtain ⟨a, rfl⟩ := hfact answer htold.1
  exact hf a htold

/-- A submission, and the poll for its result. -/
theorem submission_tells {β : Type} {post : Except String β → Prop} {command : String}
    {payload : JsonPayload} {f : ActionResult → Relay β}
    (hf : ∀ id result t, D.Answers p command (.json payload) id result →
      Fallible.Tells (D.Told p) post t (f result)) :
    Fallible.Tells (D.Told p) post t
      (submitJson command payload >>= fun id => poll (some id) .submit >>= f) := by
  refine ask_tells (fun _ h => h) fun id _ => ?_
  refine ask_tells (fun _ h => ⟨h.choose, h.choose_spec.1⟩) fun result htold => ?_
  obtain ⟨_, heq, hanswers⟩ := htold.1
  cases heq
  exact hf id result _ (hanswers id command _ rfl List.mem_cons_self)

/-- An anchor whose sequence number JavaScript holds exactly, and whose root is a hash. -/
structure PendingAnchor.Exact (p : PendingAnchor) : Prop where
  consecutive : p.nextSequence = p.previousSequence + 1
  sequence : p.nextSequence < 2 ^ 53
  root : (hexToHash p.nextRoot).hex = p.nextRoot

theorem confirmAnchor_tells (hD : D.Lawful) (hp : p.Exact) {settlement : Settlement}
    (hsequence : settlement.nextSequence = p.nextSequence)
    (hroot : settlement.nextRoot = hexToHash p.nextRoot) :
    Fallible.Tells (D.Told p) (fun _ => False) t (Relayer.confirmAnchor settlement) := by
  refine submission_tells fun id result t hanswers => ?_
  obtain ⟨r, _, htells⟩ := hanswers
  refine (htells (fun _ => False) ?_).elim
  rw [processAction_direct hD, if_pos rfl, hsequence, hroot]
  refine handleAnchorConfirmation_tells (hD.anchorConfirmed _ _ hp.sequence) ?_ hp.root
  exact UInt64.toNat_ofNat_of_lt' (Nat.lt_trans hp.sequence (by decide))

theorem anchorState_tells :
    Fallible.Tells (D.Told p) (fun r => ∃ a, r = .ok a ∧
      a = (p.nextSequence, hexToHash p.nextRoot)) t anchorState := by
  refine ask_tells (fun _ h => h) fun sequenceFirst _ => ?_
  cases sequenceFirst with
  | true =>
      refine ask_tells (fun _ h => ⟨_, h⟩) fun sequence hsequence => ?_
      refine ask_tells (fun _ h => ⟨_, h⟩) fun root hroot => ?_
      cases hsequence.1
      cases hroot.1
      exact Fallible.Tells.pure ⟨_, rfl, rfl⟩
  | false =>
      refine ask_tells (fun _ h => ⟨_, h⟩) fun root hroot => ?_
      refine ask_tells (fun _ h => ⟨_, h⟩) fun sequence hsequence => ?_
      cases hsequence.1
      cases hroot.1
      exact Fallible.Tells.pure ⟨_, rfl, rfl⟩

theorem recoverAnchor_tells (hD : D.Lawful) (hkind : p.kind.recoverable = true) (id : Hash) :
    Fallible.Tells (SawAll p) (fun r => ∃ now, r = .ok (.anchor
      (p.settlement D.setup.platform.keccak256 id (Payout.checkpoint Address.zero) now))) []
      (processAction D.setup.platform D.setup.config
        (D.action id "RECOVER_ANCHOR" (.json .recoverAnchor))) := by
  have hne : toHash "RECOVER_ANCHOR" ≠ toHash "ANCHOR_CONFIRMED" := by decide
  have hrecovery : Fallible.Tells (SawAll p) _ [] (handleAnchorRecovery D.setup.platform
      (D.action id "RECOVER_ANCHOR" (.json .recoverAnchor))) := handleAnchorRecovery_tells hkind
  rw [processAction_direct hD, if_neg hne, if_pos rfl]
  exact hrecovery

/-- The vault is at the settlement's next state, so nothing is executed. -/
theorem settleRecovered_tells (hD : D.Lawful) (hp : p.Exact) {settlement : Settlement}
    (hprevious : settlement.previousSequence = p.previousSequence)
    (hnext : settlement.nextSequence = p.nextSequence)
    (hroot : settlement.nextRoot = hexToHash p.nextRoot) :
    Fallible.Tells (D.Told p) (fun _ => False) t
      (settleRecovered settlement (p.nextSequence, hexToHash p.nextRoot)) := by
  have hne : ¬ (p.nextSequence = settlement.previousSequence ∧
      hexToHash p.nextRoot = settlement.previousRoot) := by
    rintro ⟨heq, _⟩
    have := hp.consecutive
    omega
  have hat : p.nextSequence = settlement.nextSequence ∧
      hexToHash p.nextRoot = settlement.nextRoot := ⟨hnext.symm, hroot.symm⟩
  unfold settleRecovered
  refine Fallible.Tells.ofExcept (a := ()) (rejectIf_of_not ?_) ?_
  · rintro ⟨_, hnot⟩
    exact of_decide_eq_false hnot hat
  · rw [decide_eq_false hne]
    exact confirmAnchor_tells hD hp hnext hroot

/-- **Recovery does not end while the anchor is pending**: its confirmation would have cleared
it. -/
theorem recoverPendingAnchor_tells (hD : D.Lawful) (hp : p.Exact)
    (hkind : p.kind.recoverable = true) :
    Fallible.Tells (D.Told p) (fun _ => False) t recoverPendingAnchor := by
  refine submission_tells fun id result t hanswers => ?_
  obtain ⟨r, hresult, htells⟩ := hanswers
  obtain ⟨now, hr⟩ := htells _ (recoverAnchor_tells hD hkind id)
  rw [hresult, hr]
  let settlement := p.settlement D.setup.platform.keccak256 id (Payout.checkpoint Address.zero) now
  refine Fallible.Tells.ofExcept (a := ()) rfl ?_
  refine Fallible.Tells.ofExcept (a := .anchor settlement) rfl ?_
  refine Fallible.Tells.bind (told_antitone D p) anchorState_tells fun state t hstate => ?_
  refine Fallible.Tells.ofExcept (a := settlement) rfl ?_
  rw [hstate]
  exact settleRecovered_tells hD hp rfl rfl rfl

theorem settleError_tells (hD : D.Lawful) (hp : p.Exact) (hkind : p.kind.recoverable = true)
    (job : String) (payload : Payload) {error : String} (herror : isPendingAnchorError error = true) :
    Fallible.Tells (D.Told p) (fun _ => False) t (settleError job (some payload) error) := by
  have hrecover : Fallible.Tells (D.Told p) (fun _ => False) t
      recoverPendingAnchorAllowingAlreadyCleared :=
    Fallible.Tells.tryCatch (recoverPendingAnchor_tells hD hp hkind) (told_antitone D p)
  unfold settleError
  dsimp only
  rw [if_pos herror]
  exact Fallible.Tells.tryCatch (Fallible.Tells.endless (told_antitone D p) hrecover _)
    (told_antitone D p)

/-- A turn leaves a program that cannot end at an await, with nothing submitted. -/
theorem turn_tells (now : Nat) {q : Processing} :
    ∀ {s : Relayer.Store} {t : Relayer.Trace}, D.Told p t →
      Process.Obeys (fun _ _ => True) (fun t _ => D.Told p t → False) t q →
      ∃ r k t', (turn now s q).2 = .call r k ∧ D.Told p t' ∧
        (∀ command message id, (⟨.direct command message, .ok id⟩ : Relayer.Exchange) ∈ t' →
          (⟨.direct command message, .ok id⟩ : Relayer.Exchange) ∈ t) ∧
        Process.Obeys (fun _ _ => True) (fun t _ => D.Told p t → False) t' (.call r k) := by
  induction q with
  | done r => exact fun htold hobeys => (hobeys htold).elim
  | call r k ih =>
      intro s t htold hobeys
      cases r with
      | update id patch =>
          have hgo : ∀ (answer : Answered (.update id patch)) (s' : Relayer.Store),
              ∃ r' k' t', (turn now s' (k answer)).2 = .call r' k' ∧ D.Told p t' ∧
                (∀ command message id, (⟨.direct command message, .ok id⟩ : Relayer.Exchange) ∈ t' →
                  (⟨.direct command message, .ok id⟩ : Relayer.Exchange) ∈ t) ∧
                Process.Obeys (fun _ _ => True) (fun t _ => D.Told p t → False) t'
                  (.call r' k') := by
            intro answer s'
            obtain ⟨r', k', t', hturn, htold', hsubmitted, hobeys'⟩ :=
              ih answer (s := s') (t := ⟨.update id patch, answer⟩ :: t) ⟨trivial, htold⟩
                (hobeys.answer answer)
            refine ⟨r', k', t', hturn, htold', ?_, hobeys'⟩
            intro command message id' hmem
            rcases List.mem_cons.mp (hsubmitted command message id' hmem) with heq | hmem
            · cases heq
            · exact hmem
          simp only [turn]
          cases s.updateJob id patch now with
          | ok result => exact hgo (.ok result.1) result.2
          | error cause => exact hgo (.error cause.message) s
      | _ => exact ⟨_, k, t, rfl, htold, fun _ _ _ h => h, hobeys⟩

end Relay

/-! ### The deployment meanwhile -/

/-- FCC has handed the extension the submission, under this id. -/
def Site.Submitted (D : Site) (n : Nat) (w : World) (id : Hash) (command : String)
    (message : Relayer.Message) : Prop :=
  ∃ (pid : Nat) (h : Started), n ≤ pid ∧ w.handlers[pid]? = some h ∧
    h.action = D.action id command message ∧
    ∀ (i : Nat) (h' : Started), i < pid → w.handlers[i]? = some h' → h'.action.id ≠ id

/-- A recovery that has begun and not ended. -/
structure Recovering (D : Site) (p : PendingAnchor) (n : Nat)
    (returned : List (String × Option Relayer.JobStatus)) (d : Deployment) : Prop where
  waiting : Waiting D.setup p n d.world
  running : d.relayer.running = true
  returned : d.relayer.returned = returned
  stage : ∃ job r k t, d.relayer.drains = [{ job, process := .call r k }] ∧ D.Told p t ∧
    (∀ command message id, (⟨.direct command message, .ok id⟩ : Relayer.Exchange) ∈ t →
      D.Submitted n d.world id command message) ∧
    Process.Obeys (fun _ _ => True) (fun t _ => D.Told p t → False) t (.call r k) ∧
    ∀ id, d.accepted = some id → ∃ command message, r = .direct command message ∧
      D.Submitted n d.world id command message

section Deployments

open Relayer

variable {D : Site} {p : PendingAnchor} {n : Nat} {w w' : World} {id : Hash} {command : String}
  {message : Relayer.Message}

theorem Site.Submitted.mono (h : D.Submitted n w id command message) (hext : Extends w w') :
    D.Submitted n w' id command message := by
  obtain ⟨pid, started, hpid, hget, haction, hfirst⟩ := h
  obtain ⟨started', hget', haction', _⟩ := hext.handlers pid started hget
  refine ⟨pid, started', hpid, hget', haction'.trans haction, ?_⟩
  intro i h' hi hh'
  have hlt : i < w.handlers.length := Nat.lt_trans hi (List.getElem?_eq_some_iff.mp hget).1
  obtain ⟨h'', hget'', haction'', _⟩ := hext.handlers i _ (List.getElem?_eq_getElem hlt)
  rw [hh'] at hget''
  cases hget''
  rw [haction'']
  exact hfirst i _ hi (List.getElem?_eq_getElem hlt)

/-- What FCC has of a submission is what its handler told. -/
theorem Site.Submitted.answers (h : D.Submitted n w id command message)
    (hw : Waiting D.setup p n w) {r : Except HandlerError Reply} (hr : w.outcome id = some r) :
    D.Answers p command message id (D.result r) := by
  obtain ⟨pid, started, hpid, hget, haction, hfirst⟩ := h
  have hlt := (List.getElem?_eq_some_iff.mp hget).1
  have hfind : w.handlers.find? (fun h => h.action.id = id) = some started := by
    refine List.find?_eq_some_iff_getElem.mpr ⟨?_, pid, hlt, ?_, ?_⟩
    · simp [haction, Site.action]
    · exact (List.getElem?_eq_some_iff.mp hget).2
    · intro i hi
      have hne := hfirst i _ hi (List.getElem?_eq_getElem (Nat.lt_trans hi hlt))
      simpa using hne
  unfold World.outcome at hr
  rw [hfind] at hr
  have hdone : started.process = .done r := by
    cases hp : started.process with
    | done r' => simp [hp] at hr; rw [hr]
    | call r' k => simp [hp] at hr
  refine ⟨r, rfl, fun post htells => ?_⟩
  obtain ⟨hsaw, hafter⟩ := hw.seen pid started hpid hget
  rw [haction, hdone] at hafter
  exact (Process.Obeys.after htells hafter) hsaw

variable {d d' : Deployment} {returned : List (String × Option JobStatus)}

/-- The system moves on beside the recovery. -/
theorem Recovering.move (h : Recovering D p n returned d) {m : Move} (hserves : m.Serves)
    (hstep : d.move D m = .ok d') :
    Recovering D p n returned d' ∨ ClearedOf p d'.world.ledger := by
  obtain ⟨world, hworld, rfl⟩ := move_ok hstep
  have hext := step_extends hworld
  rcases h.waiting.step hserves hworld with hwaiting | hcleared
  · obtain ⟨job, r, k, t, hdrains, htold, hsubmitted, hobeys, haccepted⟩ := h.stage
    refine Or.inl ⟨hwaiting, h.running, h.returned, job, r, k, t, hdrains, htold, ?_, hobeys, ?_⟩
    · exact fun command message id hmem => (hsubmitted command message id hmem).mono hext
    · intro id hid
      obtain ⟨command, message, hr, haccept⟩ := haccepted id hid
      exact ⟨command, message, hr, haccept.mono hext⟩
  · exact Or.inr hcleared

/-- A turn that nothing awaited begins does not reach the call of `process`. -/
theorem Recovering.turn (h : Recovering D p n returned d) {t : Turn} {relayer : Orchestrator}
    (hentry : ∀ i answer, t.entry ≠ .answered i answer) (hstep : d.relayer.step t = .ok relayer) :
    Recovering D p n returned { d with relayer } := by
  obtain ⟨job, r, k, trace, hdrains, hstage⟩ := h.stage
  obtain ⟨store, rfl⟩ := turn_beside h.running hdrains hentry hstep
  exact ⟨h.waiting, h.running, h.returned, job, r, k, trace, hdrains, hstage⟩

/-- What the relayer is told is so. -/
theorem Waiting.fact (hw : Waiting D.setup p n d.world) {t : Relayer.Trace}
    (hsubmitted : ∀ command message id,
      (⟨.direct command message, .ok id⟩ : Relayer.Exchange) ∈ t →
      D.Submitted n d.world id command message)
    {served : Served} {r : Ask} {x : Answered r} (hx : d.answer D served r = some x) :
    D.Fact p t ⟨r, x⟩ := by
  cases r with
  | update id patch => cases hx
  | direct command message =>
      obtain ⟨id, _, rfl⟩ := Option.map_eq_some_iff.mp hx
      exact ⟨id, rfl⟩
  | poll actionID tag =>
      cases actionID with
      | none => cases hx
      | some id =>
          obtain ⟨outcome, houtcome, rfl⟩ := Option.map_eq_some_iff.mp hx
          refine ⟨D.result outcome, rfl, ?_⟩
          intro id' command message heq hmem
          cases heq
          exact (hsubmitted command message id hmem).answers hw houtcome
  | sequenceFirst => cases hx; exact ⟨_, rfl⟩
  | stateSequence =>
      cases hx
      exact congrArg Except.ok hw.vault.1
  | stateRoot =>
      cases hx
      exact congrArg Except.ok hw.vault.2
  | _ => trivial

/-- The call of `process` is told what is so, and goes on to its next await. -/
theorem Recovering.answered (h : Recovering D p n returned d) {i now : Nat} {served : Served}
    (hstep : d.serve D i now served = .ok d') : Recovering D p n returned d' := by
  obtain ⟨job, r, k, t, hdrains, htold, hsubmitted, hobeys, haccepted⟩ := h.stage
  obtain ⟨r', x, relayer, hawaits, hanswer, hrelayer, rfl⟩ := serve_ok hstep
  obtain ⟨rfl, rfl⟩ := awaits_single hdrains hawaits
  obtain ⟨drain, r₀, k₀, hd, hp, rfl⟩ := Orchestrator.answered_ok hrelayer
  rw [hdrains] at hd
  cases hd
  cases hp
  rw [hanswer, Option.getD_some]
  have hleave : (d.relayer.leave 0).drains = [] := by simp [Orchestrator.leave, hdrains]
  have hstore : (d.relayer.leave 0).store = d.relayer.store := rfl
  have htold' : D.Told p (⟨r', x⟩ :: t) := ⟨h.waiting.fact hsubmitted hanswer, htold⟩
  obtain ⟨r₁, k₁, t₁, hturn, htold₁, hold, hobeys₁⟩ :=
    turn_tells now (s := d.relayer.store) htold' (hobeys.answer x)
  refine ⟨h.waiting, h.running, ?_, job, r₁, k₁, t₁, ?_, htold₁, ?_, hobeys₁, ?_⟩
  · simp only [Orchestrator.proceed, hstore, hturn, List.append_nil]
    exact h.returned
  · simp only [Orchestrator.proceed, hleave, hstore, hturn, List.nil_append]
  · intro command message id hmem
    rcases List.mem_cons.mp (hold command message id hmem) with heq | hmem
    · cases heq
      obtain ⟨id', hid, heq⟩ := Option.map_eq_some_iff.mp hanswer
      cases heq
      obtain ⟨_, _, heq, hsubmitted'⟩ := haccepted id hid
      cases heq
      exact hsubmitted'
    · exact hsubmitted command message id hmem
  · intro id hid
    cases hid

/-- FCC takes what the recovery submits. -/
theorem Recovering.accepts (h : Recovering D p n returned d) {i : Nat} {id : Hash}
    (hstep : d.accept D i id = .ok d') :
    Recovering D p n returned d' ∨ ClearedOf p d'.world.ledger := by
  obtain ⟨job, r, k, t, hdrains, htold, hsubmitted, hobeys, _⟩ := h.stage
  obtain ⟨command, message, world, hawaits, _, hfresh, hworld, rfl⟩ := accept_ok hstep
  obtain ⟨rfl, rfl⟩ := awaits_single hdrains hawaits
  have hext := step_extends hworld
  have hnew : D.Submitted n world id command message := by
    cases hworld
    refine ⟨d.world.handlers.length, _, h.waiting.started, List.getElem?_concat_length, rfl, ?_⟩
    intro i h' hi hget
    rw [List.getElem?_append_left hi] at hget
    exact hfresh h' (List.mem_of_getElem? hget)
  have hserves : (Move.receive (D.action id command message)).Serves := trivial
  rcases h.waiting.step hserves hworld with hwaiting | hcleared
  · refine Or.inl ⟨hwaiting, h.running, h.returned, job, _, k, t, hdrains, htold, ?_, hobeys, ?_⟩
    · exact fun c m id' hmem => (hsubmitted c m id' hmem).mono hext
    · intro id' hid'
      cases hid'
      exact ⟨command, message, rfl, hnew⟩
  · exact Or.inr hcleared

theorem Recovering.step (h : Recovering D p n returned d) {m : DeploymentMove}
    (hanswers : m.Answers) (hstep : d.step D m = .ok d') :
    Recovering D p n returned d' ∨ ClearedOf p d'.world.ledger := by
  cases m with
  | system move => exact h.move hanswers hstep
  | turn t =>
      obtain ⟨hentry, relayer, hrelayer, rfl⟩ := turn_ok hstep
      exact Or.inl (h.turn hentry hrelayer)
  | accept i id => exact h.accepts hstep
  | serve i now served => exact Or.inl (h.answered hstep)
  | fail i now error => exact hanswers.elim
  | crash => exact hanswers.elim
  | torn writes m => exact hanswers.elim

/-! ### Runs -/

/-- What holds of the two sides of a deployment in every state of every run. -/
structure Assembled (D : Site) (d : Deployment) : Prop where
  linked : Linked D.setup d.world
  sound : Relayer.Sound False d.relayer

/-- What a move of the deployment is to the system. -/
theorem step_world {m : DeploymentMove} (hstep : d.step D m = .ok d') :
    d'.world = d.world ∨ ∃ move, d.world.step D.setup move = .ok d'.world := by
  cases m with
  | system move =>
      obtain ⟨world, hworld, rfl⟩ := move_ok hstep
      exact Or.inr ⟨move, hworld⟩
  | turn t =>
      obtain ⟨_, relayer, _, rfl⟩ := turn_ok hstep
      exact Or.inl rfl
  | accept i id =>
      obtain ⟨_, _, world, _, _, _, hworld, rfl⟩ := accept_ok hstep
      exact Or.inr ⟨_, hworld⟩
  | serve i now served =>
      obtain ⟨_, _, relayer, _, _, _, rfl⟩ := serve_ok hstep
      exact Or.inl rfl
  | fail i now error =>
      obtain ⟨relayer, _, rfl⟩ := answered_ok hstep
      exact Or.inl rfl
  | crash =>
      cases hstep
      exact Or.inl rfl
  | torn writes m =>
      cases hstep
      exact Or.inl rfl

theorem assembled_step {m : DeploymentMove} (h : Assembled D d) (hstep : d.step D m = .ok d') :
    Assembled D d' := by
  refine ⟨?_, ?_⟩
  · rcases step_world hstep with heq | ⟨move, hworld⟩
    · rw [heq]; exact h.linked
    · exact linked_step h.linked hworld
  · cases m with
    | system move =>
        obtain ⟨world, _, rfl⟩ := move_ok hstep
        exact h.sound
    | turn t =>
        obtain ⟨_, relayer, hrelayer, rfl⟩ := turn_ok hstep
        exact Relayer.sound_step h.sound hrelayer
    | accept i id =>
        obtain ⟨_, _, world, _, _, _, _, rfl⟩ := accept_ok hstep
        exact h.sound
    | serve i now served =>
        obtain ⟨_, _, relayer, _, _, hrelayer, rfl⟩ := serve_ok hstep
        exact h.sound.answered hrelayer
    | fail i now error =>
        obtain ⟨relayer, hrelayer, rfl⟩ := answered_ok hstep
        exact h.sound.answered hrelayer
    | crash =>
        cases hstep
        exact Relayer.sound_started d.relayer.store
    | torn writes m =>
        cases hstep
        exact Relayer.sound_started _

theorem assembled_after (D : Site) (moves : List DeploymentMove) :
    Assembled D (deploymentAfter D moves) :=
  Machine.invariant (fun _ _ _ h hstep => assembled_step h hstep)
    ⟨linked_init, Relayer.sound_started {}⟩ moves

/-- The root of the pending anchor is the text of a hash. -/
def State.HexRoot (s : State) : Prop :=
  ∀ p, s.pendingAnchor = some p → ∃ root : Hash, p.nextRoot = root.hex

theorem hexRoot_step {host : Host} {s s' : State} {c : Call} (h : callStep host s c = .ok s') :
    s'.HexRoot := by
  obtain ⟨pid, action, trace, event⟩ := c
  intro p hp
  cases event with
  | operate ctx stored op =>
      obtain ⟨_, _, next, _, rfl⟩ := Operation.apply_ok h
      cases hp
      exact ⟨_, rfl⟩
  | confirm sequence root stored =>
      obtain rfl := confirmAnchor_ok h
      cases hp

theorem Linked.root_hex {S : Setup} (h : Linked S w) (hp : w.ledger.pendingAnchor = some p) :
    (hexToHash p.nextRoot).hex = p.nextRoot := by
  have hhex : w.ledger.HexRoot := by
    rw [h.coherent.ledger]
    refine Machine.invariant (fun _ _ _ _ hs => hexRoot_step hs) ?_ w.calls
    intro p hp
    cases hp
  obtain ⟨root, hroot⟩ := hhex p hp
  rw [hroot, hexToHash_hex]

theorem ClearedOf.deployed (h : ClearedOf p d.world.ledger) (hassembled : Assembled D d)
    {m : DeploymentMove} (hstep : d.step D m = .ok d') : ClearedOf p d'.world.ledger := by
  rcases step_world hstep with heq | ⟨move, hworld⟩
  · rw [heq]; exact h
  · exact h.step hassembled.linked hworld

/-- The vault has reached sequence number `n`, and executed nothing since that lies before it. -/
structure ExecutedSince (n : Nat) (executed : List Settlement) (v : Vault) : Prop where
  reached : n ≤ v.stateSequence
  later : ∀ settlement ∈ v.executed,
    settlement ∈ executed ∨ n ≤ settlement.previousSequence

theorem ExecutedSince.step {executed : List Settlement} {S : Setup} {move : Move}
    (h : ExecutedSince n executed w.vault) (hw : w.step S move = .ok w') :
    ExecutedSince n executed w'.vault := by
  refine ⟨h.reached.trans (step_extends hw).sequence, ?_⟩
  cases move with
  | receive action => cases hw; exact h.later
  | advance pid a =>
      obtain ⟨started, r, k, _, _, _, rfl⟩ := advance_ok hw
      obtain ⟨hvault, _⟩ := respond_frame S pid started a w r
      dsimp only
      rw [hvault]
      exact h.later
  | transact tx call =>
      obtain ⟨v, hv, rfl⟩ := transact_ok hw
      obtain ⟨_, _, hexecuted, _⟩ := apply_frame hv
      dsimp only
      rw [hexecuted]
      exact h.later
  | execute tx settlement =>
      obtain ⟨_, v, hv, rfl⟩ := execute_ok hw
      obtain ⟨_, hprevious, _, _, _, rfl⟩ := executeSettlement_ok hv
      intro settlement' hmem
      rcases List.mem_append.mp hmem with hmem | hmem
      · exact h.later settlement' hmem
      · rw [List.mem_singleton.mp hmem, hprevious]
        exact Or.inr h.reached
  | restart => cases hw; exact h.later

theorem executed_since (moves : List DeploymentMove) (hn : n ≤ d.world.vault.stateSequence) :
    ExecutedSince n d.world.vault.executed
      (Machine.run (Deployment.step D) d moves).world.vault := by
  have hstep : ∀ d₁ m d₂, ExecutedSince n d.world.vault.executed d₁.world.vault →
      Deployment.step D d₁ m = .ok d₂ →
      ExecutedSince n d.world.vault.executed d₂.world.vault := by
    intro d₁ m d₂ h hstep
    rcases step_world hstep with heq | ⟨move, hworld⟩
    · rw [heq]; exact h
    · exact h.step hworld
  exact Machine.invariant hstep ⟨hn, fun _ hmem => Or.inl hmem⟩ moves

/-! ### Recovery -/

/-- The vault stands at the next state of the pending anchor `p`, and a job that has met `p` begins
its recovery. -/
structure MeetsSettled (p : PendingAnchor) (d : Deployment) : Prop where
  pending : d.world.ledger.pendingAnchor = some p
  settled : d.world.vault.At p.nextSequence p.nextRoot
  begins : ∃ job payload error, isPendingAnchorError error = true ∧
    d.relayer.drains = [{ job, process := (settleError job (some payload) error).run }]
  free : d.accepted = none

/-- A recovery begins with its submission. -/
theorem settleError_submits (job : String) (payload : Payload) {error : String}
    (herror : isPendingAnchorError error = true) : ∃ k,
    (settleError job (some payload) error).run =
      .call (.direct "RECOVER_ANCHOR" (.json .recoverAnchor)) k := by
  unfold settleError
  dsimp only
  rw [if_pos herror]
  exact ⟨_, rfl⟩

theorem MeetsSettled.calls (h : MeetsSettled p d) : ∃ job payload error r k,
    isPendingAnchorError error = true ∧ (settleError job (some payload) error).run = .call r k ∧
      d.relayer.drains = [{ job, process := .call r k }] := by
  obtain ⟨job, payload, error, herror, hdrains⟩ := h.begins
  obtain ⟨k, hcall⟩ := settleError_submits job payload herror
  rw [hcall] at hdrains
  exact ⟨job, payload, error, _, k, herror, hcall, hdrains⟩

theorem Assembled.running (h : Assembled D d) {drain : Drain} (hdrains : d.relayer.drains = [drain]) :
    d.relayer.running = true := by
  have hone := h.sound.one
  rw [hdrains] at hone
  by_contra hnot
  rw [if_neg hnot] at hone
  cases hone

theorem MeetsSettled.unreturned (h : MeetsSettled p d) (hassembled : Assembled D d) :
    Unreturned d.relayer.returned.length 24 d := by
  obtain ⟨job, payload, error, r, k, _, hcall, hdrains⟩ := h.calls
  refine ⟨hassembled.running hdrains, rfl, job, r, k, hdrains, ?_⟩
  rw [← hcall]
  exact settleError_within job (some payload) error

theorem MeetsSettled.recovering (h : MeetsSettled p d) (hassembled : Assembled D d) (hD : D.Lawful)
    (hkind : p.kind.recoverable = true) (hsequence : p.nextSequence < 2 ^ 53) :
    Recovering D p d.world.handlers.length d.relayer.returned d := by
  obtain ⟨job, payload, error, r, k, herror, hcall, hdrains⟩ := h.calls
  have hexact : p.Exact := ⟨(hassembled.linked.synchronised.pending p h.pending).1, hsequence,
    hassembled.linked.root_hex h.pending⟩
  have htells := settleError_tells (t := []) hD hexact hkind job payload herror
  unfold Fallible.Tells at htells
  rw [hcall] at htells
  refine ⟨⟨hassembled.linked, h.pending, h.settled, Nat.le_refl _, ?_⟩, hassembled.running hdrains, rfl,
    job, r, k, [], hdrains, trivial, ?_, htells, ?_⟩
  · intro pid started hpid hget
    exact absurd (List.getElem?_eq_some_iff.mp hget).1 (Nat.not_lt_of_le hpid)
  · intro command message id hmem
    cases hmem
  · intro id hid
    rw [h.free] at hid
    cases hid

/-- **A settled anchor is confirmed by recovery.**  Take any run of the deployment in which a job
begins to recover the pending anchor `p`, a checkpoint that the vault has executed, and go on with
it in any way in which FCC, the chain, the store and the TEE answer.  Then `process` returns after
at most 24 answers, and once it has `p` is no longer pending; and nothing is executed that lies
before the anchor's next state. -/
theorem settled_anchor_recovered (D : Site) (hD : D.Lawful) (before after : List DeploymentMove)
    (p : PendingAnchor) (h : MeetsSettled p (deploymentAfter D before))
    (hkind : p.kind.recoverable = true) (hsequence : p.nextSequence < 2 ^ 53)
    (hanswers : Machine.Meets (Deployment.step D) (fun _ m => m.Answers)
      (deploymentAfter D before) after) :
    (24 ≤ (deploymentAfter D before).answers D after →
        (deploymentAfter D before).relayer.returned.length <
          (deploymentAfter D (before ++ after)).relayer.returned.length) ∧
      ((deploymentAfter D before).relayer.returned.length <
          (deploymentAfter D (before ++ after)).relayer.returned.length →
        (deploymentAfter D (before ++ after)).world.ledger.pendingAnchor ≠ some p) ∧
      ∀ settlement ∈ (deploymentAfter D (before ++ after)).world.vault.executed,
        settlement ∈ (deploymentAfter D before).world.vault.executed ∨
          p.nextSequence ≤ settlement.previousSequence := by
  have hassembled := assembled_after D before
  have hbegun := h.recovering hassembled hD hkind hsequence
  have hafter : deploymentAfter D (before ++ after) =
      Machine.run (Deployment.step D) (deploymentAfter D before) after := Machine.run_append _ _ _
  rw [hafter]
  refine ⟨(h.unreturned hassembled).returns after hanswers, fun hreturned => ?_, ?_⟩
  · obtain ⟨_, hrecovering | hcleared⟩ := Machine.invariant_of_meets
      (fun d m d' (hd : Assembled D d ∧ (Recovering D p _ _ d ∨ ClearedOf p d.world.ledger)) hm hstep =>
        ⟨assembled_step hd.1 hstep, hd.2.elim (fun h => h.step hm hstep) fun h =>
          Or.inr (h.deployed hd.1 hstep)⟩)
      ⟨hassembled, Or.inl hbegun⟩ after hanswers
    · rw [hrecovering.returned] at hreturned
      exact absurd hreturned (Nat.lt_irrefl _)
    · exact hcleared.2
  · exact (executed_since after (Nat.le_of_eq h.settled.1.symm)).later

end Deployments

/-! ### A tick that meets an anchor -/

open Relayer

def tickId : Hash := Bytes.Fixed.ofList 32 [2]

def tickInstruction : ChainInstruction where
  externalKey := "tick"
  account := "0x1"
  command := "RISK_TICK"
  requestID := tickId
  blockNumber := 1

def tickPayload : Payload :=
  .chain { command := "RISK_TICK", requestID := tickId, blockNumber := 1 }

/-- Message 2 is a tick, and handler `pid` makes its call of the engine. -/
def tickReceived (pid : Nat) : List Move :=
  .receive (sampleAction 2 .instruction "RISK_TICK"
    (Bytes.pack [Abi.uintWord 1, Abi.uintWord 1000])) :: sampleAdvance pid 1

/-- The relayer takes the tick up and learns what it was answered. -/
def tickPolled : List DeploymentMove :=
  [.turn { now := 0, entry := .enqueueChain "job" tickInstruction }, sampleServed]

/-- The job is polled for; when its action has failed, the error is settled. -/
theorem tick_polls : ∃ o k,
    ({} : Orchestrator).step { now := 0, entry := .enqueueChain "job" tickInstruction } = .ok o ∧
      o.drains = [{ job := "job", process := .call (.poll (some tickId) .threshold) k }] ∧
      ∀ log, k (.ok { status := 0, log, data := none }) =
        (settleError "job" (some tickPayload)
          (orText log ("FCC action" ++ " returned status " ++ toString 0))).run :=
  ⟨_, _, rfl, rfl, fun _ => rfl⟩

/-- Why the action with this id was refused. -/
def World.refusal (w : World) (id : Hash) : Option HandlerError :=
  match w.outcome id with
  | some (.error e) => some e
  | _ => none

theorem refusal_eq_some {w : World} {id : Hash} {e : HandlerError} (h : w.refusal id = some e) :
    w.outcome id = some (.error e) := by
  unfold World.refusal at h
  split at h
  · next e' houtcome => cases h; exact houtcome
  · cases h

/-- A tick that is refused for a pending anchor begins a recovery. -/
theorem tick_begins {D : Site} {moves : List Move} {e : HandlerError} {error : String}
    (hrefused : (worldAfter D.setup moves).refusal tickId = some e)
    (hlog : (D.result (.error e)).log = error) (hne : error ≠ "")
    (herror : isPendingAnchorError error = true) :
    ∃ relayer : Orchestrator, deploymentAfter D (systemMoves moves ++ tickPolled) =
        { world := worldAfter D.setup moves, relayer } ∧
      relayer.drains =
        [{ job := "job", process := (settleError "job" (some tickPayload) error).run }] := by
  have hanswered := refusal_eq_some hrefused
  obtain ⟨o, k, henqueued, hdrains, hfailed⟩ := tick_polls
  obtain ⟨k', hsubmits⟩ := settleError_submits "job" tickPayload herror
  have hresult : D.result (.error e) = { status := 0, log := error, data := none } := by
    rw [← hlog]
    rfl
  have hfails : k (.ok { status := 0, log := error, data := none }) =
      .call (.direct "RECOVER_ANCHOR" (.json .recoverAnchor)) k' := by
    rw [hfailed, orText, if_neg hne, hsubmits]
  let d : Deployment := { world := worldAfter D.setup moves, relayer := o }
  have hturn : Deployment.step D { world := worldAfter D.setup moves }
      (.turn { now := 0, entry := .enqueueChain "job" tickInstruction }) = .ok d := by
    simp only [Deployment.step, henqueued, ofRelayer]
    rfl
  have hawaits : d.awaits 0 = some (.poll (some tickId) .threshold) := by
    simp only [Deployment.awaits, d, hdrains]
    rfl
  have hanswer : d.answer D {} (.poll (some tickId) .threshold) =
      some (.ok { status := 0, log := error, data := none }) := by
    simp only [Deployment.answer, d, hanswered, Option.map_some, hresult]
  let o' : Orchestrator := (o.leave 0).proceed 0 "job"
    (.call (.direct "RECOVER_ANCHOR" (.json .recoverAnchor)) k')
  have hserve : d.step D sampleServed = .ok { world := worldAfter D.setup moves, relayer := o' } := by
    simp only [sampleServed, Deployment.step, Deployment.serve, hawaits, hanswer, Deployment.answered,
      Orchestrator.answered, d, hdrains, List.getElem?_cons_zero, Option.isSome_some, if_true,
      Option.getD_some, hfails]
    rfl
  refine ⟨o', ?_, ?_⟩
  · rw [deploymentAfter, Machine.run_append, run_systemMoves, tickPolled, Machine.run_cons,
      Machine.run_cons, Machine.run_nil]
    show Machine.next _ (Machine.next _
      ({ world := worldAfter D.setup moves } : Deployment) _) _ = _
    rw [Machine.next_ok hturn, Machine.next_ok hserve]
  · have hleave : (o.leave 0).drains = [] := by simp [Orchestrator.leave, hdrains]
    rw [hsubmits]
    simp only [o', Orchestrator.proceed, hleave, List.nil_append, turn]

/-- A deposit is committed, signed and executed, but not confirmed. -/
def depositExecuted : List Move :=
  depositCommitted (sampleAddress 91) ++ sampleAdvance 0 3 ++
    [.execute (sampleTx 1 0) (depositCheckpoint (sampleAddress 91) 1 (sampleAddress 10))]

/-- Its anchor. -/
def depositAnchor : PendingAnchor where
  kind := .deposit
  operationID :=
    ((sampleFunding (sampleAddress 91)).depositID samplePlatform.keccak256 sampleSetup.config).hex
  previousSequence := 0
  nextSequence := 1
  previousRoot := newState.root
  nextRoot := sampleRoot 1

/-- In a world where the tick was refused for the anchor that the vault has executed. -/
theorem met_of_refused {D : Site} {moves : List Move} {p : PendingAnchor}
    (h : (worldAfter D.setup moves).refusal tickId = some (.ledger .anchorPending) ∧
      (worldAfter D.setup moves).ledger.pendingAnchor = some p ∧
      (worldAfter D.setup moves).vault.stateSequence = p.nextSequence ∧
      (worldAfter D.setup moves).vault.stateRoot = hexToHash p.nextRoot) :
    MeetsSettled p (deploymentAfter D (systemMoves moves ++ tickPolled)) := by
  obtain ⟨hrefused, hpending, hvault⟩ := h
  have hlog : (D.result (.error (.ledger .anchorPending))).log =
      "error: " ++ LedgerError.anchorPending.message := rfl
  have herror : isPendingAnchorError ("error: " ++ LedgerError.anchorPending.message) = true := by
    decide +kernel
  obtain ⟨relayer, hd, hdrains⟩ := tick_begins hrefused hlog (by decide) herror
  rw [hd]
  exact ⟨hpending, hvault, ⟨_, _, _, herror, hdrains⟩, rfl⟩

theorem depositExecuted_met : MeetsSettled depositAnchor
    (deploymentAfter sampleSite (systemMoves (depositExecuted ++ tickReceived 1) ++ tickPolled)) :=
  met_of_refused (by decide +kernel)

/-- The recovery of a checkpoint, from its submission to the answer to its confirmation. -/
def depositRecovered : List DeploymentMove :=
  sampleSubmitted 5 2 4 ++ List.replicate 3 sampleServed ++ sampleSubmitted 6 3 4

theorem settled_anchor_recovered_deposit :
    (deploymentAfter sampleSite (systemMoves (depositExecuted ++ tickReceived 1) ++ tickPolled ++
      depositRecovered)).world.ledger.pendingAnchor ≠ some depositAnchor := by
  have hanswers : ∀ m ∈ depositRecovered, m.Answers := by
    simp [depositRecovered, sampleSubmitted, sampleServed, systemMoves, sampleAdvance, sampleAnswer,
      DeploymentMove.Answers, Move.Serves, Answer.Serves]
  refine (settled_anchor_recovered sampleSite sampleSite_lawful _ depositRecovered depositAnchor
    depositExecuted_met (by decide) (by decide) (Machine.meets_of_forall _ hanswers)).2.1 ?_
  decide +kernel

/-! ### A payout that stays pending -/

/-- After the deposit its withdrawal is committed, signed and executed, but not confirmed. -/
def withdrawalExecuted : List Move :=
  depositExecuted ++
    .receive (sampleSite.action (Bytes.Fixed.ofList 32 [200]) "ANCHOR_CONFIRMED"
      (.json (.anchorConfirmed 1 (Bytes.Fixed.ofList 32 [1])))) :: sampleAdvance 1 4 ++
    withdrawalCommitted 2 ++ sampleAdvance 2 3 ++
    [.execute (sampleTx 1 0) (sampleSettlement 1 .withdrawRequest
      (Hash.hex (Bytes.Fixed.ofList 32 [3])) 3
      { settlementType := .userWithdrawal, account := sampleAddress 10, token := sampleAddress 91
        amount := 100, destination := sampleAddress 11 })]

/-- Its anchor. -/
def withdrawalAnchor : PendingAnchor where
  kind := .withdrawRequest
  operationID := Hash.hex (Bytes.Fixed.ofList 32 [3])
  previousSequence := 1
  nextSequence := 2
  previousRoot := sampleRoot 1
  nextRoot := sampleRoot 2

theorem withdrawalExecuted_met : MeetsSettled withdrawalAnchor
    (deploymentAfter sampleSite
      (systemMoves (withdrawalExecuted ++ tickReceived 3) ++ tickPolled)) :=
  met_of_refused (by decide +kernel)

/-- The extension refuses to recover the anchor of a fund movement, executed or not: the recovery
ends and the payout is still pending. -/
theorem executed_payout_stuck : sampleSite.Lawful ∧
    ¬ ∀ (p : PendingAnchor) (before after : List DeploymentMove),
      MeetsSettled p (deploymentAfter sampleSite before) → p.nextSequence < 2 ^ 53 →
      Machine.Meets (Deployment.step sampleSite) (fun _ m => m.Answers)
        (deploymentAfter sampleSite before) after →
      (deploymentAfter sampleSite before).relayer.returned.length <
        (deploymentAfter sampleSite (before ++ after)).relayer.returned.length →
      (deploymentAfter sampleSite (before ++ after)).world.ledger.pendingAnchor ≠ some p := by
  refine ⟨sampleSite_lawful, fun h => ?_⟩
  have hanswers : ∀ m ∈ sampleSubmitted 5 4 4, m.Answers := by
    simp [sampleSubmitted, sampleServed, systemMoves, sampleAdvance, sampleAnswer,
      DeploymentMove.Answers, Move.Serves, Answer.Serves]
  let before := systemMoves (withdrawalExecuted ++ tickReceived 3) ++ tickPolled
  have hended : (deploymentAfter sampleSite before).relayer.returned.length <
        (deploymentAfter sampleSite (before ++ sampleSubmitted 5 4 4)).relayer.returned.length ∧
      (deploymentAfter sampleSite (before ++ sampleSubmitted 5 4 4)).world.ledger.pendingAnchor =
        some withdrawalAnchor := by
    decide +kernel
  exact h withdrawalAnchor before (sampleSubmitted 5 4 4) withdrawalExecuted_met (by decide)
    (Machine.meets_of_forall _ hanswers) hended.1 hended.2

end QuietLine
