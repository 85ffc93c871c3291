/-
What holds of the system in every state of every run.

The engine's state is the one its calls lead to, so whatever is proved of runs of
the ledger holds of the system; the store holds the same state; every handler
keeps to its discipline; what a handler was told was true and, where it is about
something that only grows, still is; and every committed operation was called by
a handler on grounds that its trace shows.
-/
import Mathlib.Data.List.Infix
import QuietLine.Proofs.Fundings
import QuietLine.Proofs.Provenance

namespace QuietLine

open Process

/-! ### The system only grows -/

/-- What no move takes back. -/
structure Extends (w w' : World) : Prop where
  calls : w.calls <+: w'.calls
  handlers : ∀ (pid : Nat) (h : Started), w.handlers[pid]? = some h →
    ∃ h' : Started, w'.handlers[pid]? = some h' ∧ h'.action = h.action ∧ h.trace <:+ h'.trace
  signed : w.signed <+: w'.signed
  sequence : w.vault.stateSequence ≤ w'.vault.stateSequence
  fundings : w.vault.fundings <+: w'.vault.fundings

theorem Extends.refl (w : World) : Extends w w :=
  ⟨List.prefix_rfl, fun _ h hh => ⟨h, hh, rfl, List.suffix_rfl⟩, List.prefix_rfl, Nat.le_refl _,
    List.prefix_rfl⟩

theorem Extends.trans {w w₁ w₂ : World} (h : Extends w w₁) (h' : Extends w₁ w₂) :
    Extends w w₂ := by
  refine ⟨h.calls.trans h'.calls, ?_, h.signed.trans h'.signed, h.sequence.trans h'.sequence,
    h.fundings.trans h'.fundings⟩
  intro pid started hs
  obtain ⟨s₁, hs₁, haction, htrace⟩ := h.handlers pid started hs
  obtain ⟨s₂, hs₂, haction', htrace'⟩ := h'.handlers pid s₁ hs₁
  exact ⟨s₂, hs₂, haction'.trans haction, htrace.trans htrace'⟩

section Steps

variable {S : Setup} {w w' : World} {pid : Nat} {a : Answer}

/-- What a call of the engine changes. -/
theorem call_cases (S : Setup) (c : Call) (w : World) :
    (∃ s', callStep S.host w.ledger c = .ok s' ∧
      w.call S c = ({ w with calls := w.calls ++ [c], ledger := s', stored := s' }, .ok ())) ∨
    ∃ cause, callStep S.host w.ledger c = .error cause ∧
      w.call S c = ({ w with calls := w.calls ++ [c] }, .error cause) := by
  unfold World.call
  dsimp only
  cases h : callStep S.host w.ledger c with
  | ok s' => exact Or.inl ⟨s', rfl, rfl⟩
  | error cause => exact Or.inr ⟨cause, rfl, rfl⟩

/-- The frame of a request: the vault and the handlers are as they were. -/
theorem respond_frame (S : Setup) (pid : Nat) (h : Started) (a : Answer) (w : World)
    (r : Request) :
    (w.respond S pid h a r).1.vault = w.vault ∧ (w.respond S pid h a r).1.handlers = w.handlers ∧
      (w.respond S pid h a r).1.lost = w.lost ∧ w.calls <+: (w.respond S pid h a r).1.calls ∧
      w.signed <+: (w.respond S pid h a r).1.signed := by
  have hcall : ∀ c : Call, (w.call S c).1.vault = w.vault ∧ (w.call S c).1.handlers = w.handlers ∧
      (w.call S c).1.lost = w.lost ∧ w.calls <+: (w.call S c).1.calls ∧
      w.signed <+: (w.call S c).1.signed := by
    intro c
    rcases call_cases S c w with ⟨s', _, hc⟩ | ⟨cause, _, hc⟩
    · rw [hc]; exact ⟨rfl, rfl, rfl, List.prefix_append _ _, List.prefix_rfl⟩
    · rw [hc]; exact ⟨rfl, rfl, rfl, List.prefix_append _ _, List.prefix_rfl⟩
  cases r with
  | mutate op => exact hcall _
  | confirmAnchor sequence root => exact hcall _
  | sign settlement =>
      unfold World.respond
      dsimp only
      by_cases hs : a.signing = .refused
      · rw [if_pos hs]; exact ⟨rfl, rfl, rfl, List.prefix_rfl, List.prefix_rfl⟩
      · rw [if_neg hs]; exact ⟨rfl, rfl, rfl, List.prefix_rfl, List.prefix_append _ _⟩
  | _ => exact ⟨rfl, rfl, rfl, List.prefix_rfl, List.prefix_rfl⟩

/-- An advanced handler, in one piece: its request, its answer, and what else there is. -/
theorem advance_extends (h : w.advance S pid a = .ok w') : Extends w w' := by
  obtain ⟨started, r, k, hget, _, _, rfl⟩ := advance_ok h
  obtain ⟨hvault, hhandlers, _, hcalls, hsigned⟩ := respond_frame S pid started a w r
  refine ⟨hcalls, ?_, hsigned, ?_, ?_⟩
  · intro i s hs
    dsimp only
    rw [hhandlers]
    by_cases hi : pid = i
    · obtain rfl := hi
      rw [hget] at hs
      obtain rfl := Option.some.inj hs
      refine ⟨_, List.getElem?_set_self (List.getElem?_eq_some_iff.mp hget).1, rfl, ?_⟩
      exact List.suffix_cons _ _
    · exact ⟨s, by rw [List.getElem?_set_ne hi]; exact hs, rfl, List.suffix_rfl⟩
  · dsimp only; rw [hvault]
  · dsimp only; rw [hvault]

theorem step_extends {move : Move} (h : w.step S move = .ok w') : Extends w w' := by
  cases move with
  | receive action =>
      cases h
      refine { Extends.refl w with handlers := ?_ }
      intro pid s hs
      refine ⟨s, ?_, rfl, List.suffix_rfl⟩
      rw [List.getElem?_append_left (List.getElem?_eq_some_iff.mp hs).1]
      exact hs
  | advance pid answer => exact advance_extends h
  | transact tx call =>
      obtain ⟨v, hv, rfl⟩ := transact_ok h
      obtain ⟨hseq, _, _, hfundings⟩ := apply_frame hv
      exact { Extends.refl w with sequence := hseq.ge, fundings := hfundings }
  | execute tx settlement =>
      obtain ⟨_, v, hv, rfl⟩ := execute_ok h
      obtain ⟨_, _, hnext, _, _, hv'⟩ := executeSettlement_ok hv
      refine { Extends.refl w with sequence := ?_, fundings := ?_ }
      · rw [hv']; exact Nat.le_of_lt (by rw [hnext]; exact Nat.lt_succ_self _)
      · rw [hv']
  | restart =>
      cases h
      exact { Extends.refl w with }

/-- A handler after a move: as it was, or new, or one answer further. -/
theorem step_handlers {move : Move} (hw : w.step S move = .ok w') {h' : Started}
    (hget' : w'.handlers[pid]? = some h') :
    (∃ h, w.handlers[pid]? = some h ∧ h' = h) ∨
      (move = .receive h'.action ∧ h'.trace = [] ∧
        h'.process = (processAction S.platform S.config h'.action).run) ∨
      ∃ a h r k, move = .advance pid a ∧ w.handlers[pid]? = some h ∧ h.process = .call r k ∧
        h' = h.answer r (w.respond S pid h a r).2 (k (w.respond S pid h a r).2) := by
  cases move with
  | receive action =>
      cases hw
      by_cases hi : pid < w.handlers.length
      · rw [List.getElem?_append_left hi] at hget'
        exact Or.inl ⟨h', hget', rfl⟩
      · rw [List.getElem?_append_right (Nat.le_of_not_lt hi)] at hget'
        obtain rfl := List.mem_singleton.mp (List.mem_of_getElem? hget')
        exact Or.inr (Or.inl ⟨rfl, rfl, rfl⟩)
  | advance i a =>
      obtain ⟨started, r, k, hget, _, hp, rfl⟩ := advance_ok hw
      dsimp only at hget'
      rw [(respond_frame S i started a w r).2.1] at hget'
      by_cases hi : i = pid
      · obtain rfl := hi
        rw [List.getElem?_set_self (List.getElem?_eq_some_iff.mp hget).1] at hget'
        exact Or.inr (Or.inr ⟨a, started, r, k, rfl, hget, hp, (Option.some.inj hget').symm⟩)
      · rw [List.getElem?_set_ne hi] at hget'
        exact Or.inl ⟨h', hget', rfl⟩
  | transact tx call =>
      obtain ⟨v, _, rfl⟩ := transact_ok hw
      exact Or.inl ⟨h', hget', rfl⟩
  | execute tx settlement =>
      obtain ⟨_, v, _, rfl⟩ := execute_ok hw
      exact Or.inl ⟨h', hget', rfl⟩
  | restart =>
      cases hw
      exact Or.inl ⟨h', hget', rfl⟩

end Steps

/-! ### What a handler was told -/

/-- The state the calls up to some point led to. -/
def World.Past (S : Setup) (w : World) (s : State) : Prop :=
  ∃ before, before <+: w.calls ∧ s = Machine.run (callStep S.host) newState before

/-- An exchange of a handler, as far as it can be checked against the system now. -/
def World.Recalls (S : Setup) (w : World) : Exchange → Prop
  | ⟨.state _, s⟩ => w.Past S s
  | ⟨.mutate op, .error cause⟩ => ∃ s ctx stored, w.Past S s ∧
      op.apply .wrapping S.host ctx stored s = .error cause
  | ⟨.callVault .stateSequence, some raw⟩ => Bytes.ofBigEndian raw ≤ w.vault.stateSequence
  | ⟨.callVault (.depositById depositID), some raw⟩ => ∃ record, raw = packDepositRecord record ∧
      (record = {} ∨ ∃ f ∈ w.vault.fundings,
        RecordedAs S.platform.keccak256 S.config f depositID record)
  | _ => True

theorem World.Past.mono {S : Setup} {w w' : World} {s : State} (h : w.Past S s)
    (hext : Extends w w') : w'.Past S s := by
  obtain ⟨before, hbefore, hs⟩ := h
  exact ⟨before, hbefore.trans hext.calls, hs⟩

theorem World.Recalls.mono {S : Setup} {w w' : World} {x : Exchange} (h : w.Recalls S x)
    (hext : Extends w w') : w'.Recalls S x := by
  obtain ⟨r, x⟩ := x
  cases r with
  | state site => exact World.Past.mono h hext
  | mutate op =>
      cases x with
      | ok u => trivial
      | error cause =>
          obtain ⟨s, ctx, stored, hs, happly⟩ := h
          exact ⟨s, ctx, stored, hs.mono hext, happly⟩
  | callVault read =>
      cases read with
      | stateSequence =>
          cases x with
          | none => trivial
          | some raw => exact Nat.le_trans h hext.sequence
      | stateRoot => cases x <;> trivial
      | depositById id =>
          cases x with
          | none => trivial
          | some raw =>
              obtain ⟨record, hraw, h0 | ⟨f, hf, hr⟩⟩ := h
              · exact ⟨record, hraw, Or.inl h0⟩
              · exact ⟨record, hraw, Or.inr ⟨f, hext.fundings.subset hf, hr⟩⟩
  | _ => trivial

/-! ### The invariant -/

/-- A committed operation, and the handler that called it. -/
structure Grounded (S : Setup) (w : World) (c : Call) (op : Operation) : Prop where
  untouched : Untouched c.trace
  grounds : ∃ payout, Grounds S.platform S.config c.action c.trace op payout
  handler : ∃ h : Started, w.handlers[c.pid]? = some h ∧ h.action = c.action ∧
    (⟨.mutate op, .ok ()⟩ :: c.trace : Trace) <:+ h.trace

/-- The engine and its store. -/
structure EngineCoherent (S : Setup) (w : World) : Prop where
  ledger : w.ledger = Machine.run (callStep S.host) newState w.calls
  stored : w.stored = w.ledger
  commits : ∀ c ∈ w.commits S, ∀ ctx stored op, c.2.event = .operate ctx stored op →
    Grounded S w c.2 op

structure Coherent (S : Setup) (w : World) : Prop extends EngineCoherent S w where
  books : Recorded S.platform.keccak256 S.config w.vault
  obeys : ∀ (pid : Nat) (h : Started), w.handlers[pid]? = some h → Process.Obeys
    (Proper S.platform S.config h.action)
    (Fallible.outcome (Reported S.platform S.config h.action) fun _ _ => True) h.trace h.process
  recalls : ∀ (pid : Nat) (h : Started), w.handlers[pid]? = some h →
    ∀ x ∈ h.trace, w.Recalls S x

section Invariant

variable {S : Setup} {w w' : World} {pid : Nat} {a : Answer}

theorem Grounded.mono {c : Call} {op : Operation} (h : Grounded S w c op)
    (hext : Extends w w') : Grounded S w' c op := by
  obtain ⟨s, hs, haction, htrace⟩ := h.handler
  obtain ⟨s', hs', haction', htrace'⟩ := hext.handlers _ s hs
  exact ⟨h.untouched, h.grounds, s', hs', haction'.trans haction, htrace.trans htrace'⟩

/-- Where no call is added, no commit is. -/
theorem EngineCoherent.keep (h : EngineCoherent S w) (hext : Extends w w')
    (hcalls : w'.calls = w.calls) (hledger : w'.ledger = w.ledger) (hstored : w'.stored = w.ledger) :
    EngineCoherent S w' := by
  refine ⟨by rw [hledger, hcalls]; exact h.ledger, by rw [hstored, hledger], ?_⟩
  intro c hc ctx stored op hop
  unfold World.commits at hc
  rw [hcalls] at hc
  exact (h.commits c hc ctx stored op hop).mono hext

theorem Coherent.past (h : Coherent S w) : w.Past S w.ledger :=
  ⟨w.calls, List.prefix_rfl, h.ledger⟩

/-- The vault answers from its books. -/
theorem Coherent.view (h : Coherent S w) (read : VaultRead) :
    w.Recalls S ⟨.callVault read, some (w.vault.view read)⟩ := by
  cases read with
  | stateSequence =>
      show Bytes.ofBigEndian (Bytes.bigEndian 32 w.vault.stateSequence) ≤ _
      rw [Bytes.ofBigEndian_bigEndian]
      exact Nat.mod_le _ _
  | stateRoot => trivial
  | depositById id => exact ⟨_, rfl, h.books.records id⟩

/-- The calls of the engine are what the ledger ran, one more included. -/
theorem Coherent.call (h : Coherent S w) (c : Call) :
    (w.call S c).1.calls = w.calls ++ [c] ∧ (w.call S c).1.stored = (w.call S c).1.ledger ∧
      (w.call S c).1.ledger =
        Machine.run (callStep S.host) newState (w.call S c).1.calls := by
  have hrun : Machine.run (callStep S.host) newState (w.calls ++ [c]) =
      Machine.next (callStep S.host) w.ledger c := by
    rw [Machine.run_append, ← h.ledger]
    rfl
  rcases call_cases S c w with ⟨s', hs', hc⟩ | ⟨cause, hs', hc⟩
  · rw [hc]
    exact ⟨rfl, rfl, by rw [hrun, Machine.next_ok hs']⟩
  · rw [hc]
    exact ⟨rfl, h.stored, by rw [hrun, Machine.next_error hs']⟩

/-- The commits after one more call: those before, and the call if it was accepted. -/
theorem Coherent.mem_commits (h : Coherent S w) {c : Call} {w₁ : World}
    (hcalls : w₁.calls = w.calls ++ [c]) {d : State × Call} (hd : d ∈ w₁.commits S) :
    d ∈ w.commits S ∨ d = (w.ledger, c) ∧ ∃ s', callStep S.host w.ledger c = .ok s' := by
  unfold World.commits at hd
  rw [hcalls, Machine.commits_append, ← h.ledger] at hd
  rcases List.mem_append.mp hd with hd | hd
  · exact Or.inl hd
  · cases hs : callStep S.host w.ledger c with
    | error cause =>
        rw [Machine.commits_single_error hs] at hd
        cases hd
    | ok s' =>
        rw [Machine.commits_single_ok hs] at hd
        exact Or.inr ⟨List.mem_singleton.mp hd, s', rfl⟩

/-- What a request is answered is true of the system. -/
theorem Coherent.respond (h : Coherent S w) (started : Started) (r : Request) :
    w.Recalls S ⟨r, (w.respond S pid started a r).2⟩ := by
  cases r with
  | state site => exact h.past
  | mutate op =>
      have hcall := call_cases S
        { pid, action := started.action, trace := started.trace
          event := .operate a.ctx a.stored op } w
      show w.Recalls S ⟨.mutate op, (w.call S _).2⟩
      rcases hcall with ⟨s', _, hc⟩ | ⟨cause, hs', hc⟩
      · rw [hc]; trivial
      · rw [hc]; exact ⟨w.ledger, a.ctx, a.stored, h.past, hs'⟩
  | callVault read =>
      show w.Recalls S ⟨.callVault read, if a.reachable then some (w.vault.view read) else none⟩
      cases a.reachable with
      | true => exact h.view read
      | false => cases read <;> trivial
  | _ => trivial

/-- One request keeps the engine's part of the invariant. -/
theorem Coherent.respond_engine (h : Coherent S w) {started : Started} {r : Request}
    {k : Response r → Running} (hget : w.handlers[pid]? = some started)
    (hp : started.process = .call r k) (hw : w.advance S pid a = .ok w') :
    EngineCoherent S w' := by
  have hext := advance_extends hw
  obtain ⟨s₀, r₀, k₀, hget₀, _, hp₀, hw'⟩ := advance_ok hw
  rw [hget] at hget₀
  obtain rfl := Option.some.inj hget₀
  rw [hp] at hp₀
  cases hp₀
  have hkeep : (w.respond S pid started a r).1.calls = w.calls →
      (w.respond S pid started a r).1.ledger = w.ledger →
      (w.respond S pid started a r).1.stored = w.stored → EngineCoherent S w' := by
    intro hcalls hledger hstored
    refine h.toEngineCoherent.keep hext ?_ ?_ ?_
    · rw [hw']; exact hcalls
    · rw [hw']; exact hledger
    · rw [hw', ← h.stored]; exact hstored
  have hcall : ∀ c : Call, (w.respond S pid started a r).1 = (w.call S c).1 →
      (∀ ctx stored op, c.event = .operate ctx stored op →
        ∀ s', callStep S.host w.ledger c = .ok s' → Grounded S w' c op) →
      EngineCoherent S w' := by
    intro c hc hgrounded
    obtain ⟨hcalls, hstored, hrun⟩ := h.call c
    have hcalls' : w'.calls = w.calls ++ [c] := by rw [hw', hc]; exact hcalls
    have hledger' : w'.ledger = (w.call S c).1.ledger := by rw [hw', hc]
    have hstored' : w'.stored = (w.call S c).1.stored := by rw [hw', hc]
    refine ⟨by rw [hledger', hcalls', ← hcalls]; exact hrun, by rw [hstored', hledger', hstored], ?_⟩
    intro d hd ctx stored op hop
    rcases h.mem_commits hcalls' hd with hd | ⟨rfl, s', hs'⟩
    · exact (h.commits d hd ctx stored op hop).mono hext
    · exact hgrounded ctx stored op hop s' hs'
  have hallowed := (h.obeys pid started hget)
  rw [hp] at hallowed
  cases r with
  | mutate op =>
      refine hcall _ rfl ?_
      intro ctx stored op' hop s' hs'
      cases hop
      obtain ⟨huntouched, hgrounds⟩ := hallowed.allowed
      refine ⟨huntouched, hgrounds, ?_⟩
      have hset : w'.handlers[pid]? = some (started.answer (.mutate op)
          (w.respond S pid started a (.mutate op)).2
          (k (w.respond S pid started a (.mutate op)).2)) := by
        rw [hw', (respond_frame S pid started a w (.mutate op)).2.1]
        exact List.getElem?_set_self (List.getElem?_eq_some_iff.mp hget).1
      refine ⟨_, hset, rfl, ?_⟩
      have hanswer : (w.respond S pid started a (.mutate op)).2 = .ok () := by
        show (w.call S _).2 = .ok ()
        rcases call_cases S { pid, action := started.action, trace := started.trace
                              event := .operate a.ctx a.stored op } w with
          ⟨s₁, _, hc⟩ | ⟨cause, hcause, _⟩
        · rw [hc]
        · rw [hs'] at hcause
          cases hcause
      show _ <:+ ⟨Request.mutate op, _⟩ :: started.trace
      rw [hanswer]
  | confirmAnchor sequence root => exact hcall _ rfl (by intro _ _ _ hop; cases hop)
  | sign settlement =>
      have hsame : (w.respond S pid started a (.sign settlement)).1.calls = w.calls ∧
          (w.respond S pid started a (.sign settlement)).1.ledger = w.ledger ∧
          (w.respond S pid started a (.sign settlement)).1.stored = w.stored := by
        show (if a.signing = .refused then w else _).calls = _ ∧
          (if a.signing = .refused then w else _).ledger = _ ∧
          (if a.signing = .refused then w else _).stored = _
        by_cases hs : a.signing = .refused
        · rw [if_pos hs]; exact ⟨rfl, rfl, rfl⟩
        · rw [if_neg hs]; exact ⟨rfl, rfl, rfl⟩
      exact hkeep hsame.1 hsame.2.1 hsame.2.2
  | _ => exact hkeep rfl rfl rfl

theorem Coherent.advance (h : Coherent S w) (hw : w.advance S pid a = .ok w') :
    Coherent S w' := by
  have hext := advance_extends hw
  obtain ⟨started, r, k, hget, _, hp, hw'⟩ := advance_ok hw
  have hengine := h.respond_engine hget hp hw
  have hframe := respond_frame S pid started a w r
  have hhandlers : w'.handlers = w.handlers.set pid (started.answer r
      (w.respond S pid started a r).2 (k (w.respond S pid started a r).2)) := by
    rw [hw']
    dsimp only
    rw [hframe.2.1]
  have hset : w'.handlers[pid]? = some (started.answer r (w.respond S pid started a r).2
      (k (w.respond S pid started a r).2)) := by
    rw [hhandlers]
    exact List.getElem?_set_self (List.getElem?_eq_some_iff.mp hget).1
  refine ⟨hengine, ?_, ?_, ?_⟩
  · have hvault : w'.vault = w.vault := by rw [hw']; exact hframe.1
    rw [hvault]
    exact h.books
  · intro i s hs
    by_cases hi : pid = i
    · obtain rfl := hi
      rw [hset] at hs
      obtain rfl := Option.some.inj hs
      have hobeys := h.obeys pid started hget
      rw [hp] at hobeys
      exact hobeys.answer _
    · rw [hhandlers, List.getElem?_set_ne hi] at hs
      exact h.obeys i s hs
  · intro i s hs x hx
    by_cases hi : pid = i
    · obtain rfl := hi
      rw [hset] at hs
      obtain rfl := Option.some.inj hs
      rcases List.mem_cons.mp hx with rfl | hx
      · exact (h.respond started r).mono hext
      · exact (h.recalls pid started hget x hx).mono hext
    · rw [hhandlers, List.getElem?_set_ne hi] at hs
      exact (h.recalls i s hs x hx).mono hext

/-- A new handler starts with nothing said and nothing done. -/
theorem Coherent.receive (h : Coherent S w) (action : Action)
    (hw : w.step S (.receive action) = .ok w') : Coherent S w' := by
  have hext := step_extends hw
  cases hw
  have hengine := h.toEngineCoherent.keep hext rfl rfl h.stored
  have hcases : ∀ (i : Nat) (s : Started), (w.handlers ++
      [{ action, process := (processAction S.platform S.config action).run }])[i]? = some s →
      w.handlers[i]? = some s ∨
        s = { action, process := (processAction S.platform S.config action).run } := by
    intro i s hs
    by_cases hi : i < w.handlers.length
    · rw [List.getElem?_append_left hi] at hs
      exact Or.inl hs
    · rw [List.getElem?_append_right (Nat.le_of_not_lt hi)] at hs
      exact Or.inr (List.mem_singleton.mp (List.mem_of_getElem? hs))
  refine ⟨hengine, h.books, ?_, ?_⟩
  · intro i s hs
    rcases hcases i s hs with hs | rfl
    · exact h.obeys i s hs
    · exact processAction_proper S.platform S.config action
  · intro i s hs x hx
    rcases hcases i s hs with hs | rfl
    · exact (h.recalls i s hs x hx).mono hext
    · cases hx

theorem coherent_step {move : Move} (h : Coherent S w) (hw : w.step S move = .ok w') :
    Coherent S w' := by
  have hext := step_extends hw
  have hvault : ∀ v, Recorded S.platform.keccak256 S.config v →
      Extends w { w with vault := v } → Coherent S { w with vault := v } := by
    intro v hv hext
    exact ⟨h.toEngineCoherent.keep hext rfl rfl h.stored, hv, h.obeys,
      fun i s hs x hx => (h.recalls i s hs x hx).mono hext⟩
  cases move with
  | receive action => exact h.receive action hw
  | advance pid answer => exact h.advance hw
  | transact tx call =>
      obtain ⟨v, hv, rfl⟩ := transact_ok hw
      exact hvault v (h.books.apply hv) hext
  | execute tx settlement =>
      obtain ⟨_, v, hv, rfl⟩ := execute_ok hw
      refine hvault v ?_ hext
      obtain ⟨_, _, _, _, _, rfl⟩ := executeSettlement_ok hv
      exact { h.books with }
  | restart =>
      cases hw
      exact ⟨h.toEngineCoherent.keep hext rfl h.stored h.stored, h.books, h.obeys, h.recalls⟩

theorem coherent_init : Coherent S {} where
  ledger := rfl
  stored := rfl
  books := recorded_empty
  obeys := by simp
  recalls := by simp
  commits := by intro c hc; cases hc

/-- **The system is coherent in every state of every run.** -/
theorem coherent_worldAfter (S : Setup) (moves : List Move) : Coherent S (worldAfter S moves) :=
  Machine.invariant (fun _ _ _ h hw => coherent_step h hw) coherent_init moves

end Invariant

/-! ### The run of the ledger -/

/-- The call committed an operation; confirmations do not count. -/
def Call.Operates (c : Call) (op : Operation) : Prop :=
  ∃ ctx stored, c.event = .operate ctx stored op

theorem Call.Operates.unique {c : Call} {op op' : Operation} (h : c.Operates op)
    (h' : c.Operates op') : op = op' := by
  obtain ⟨_, _, hevent⟩ := h
  obtain ⟨_, _, hevent'⟩ := h'
  rw [hevent] at hevent'
  cases hevent'
  rfl

/-- The calls of the system's engine, as the ledger sees them. -/
def World.events (w : World) : List Event := w.calls.map Call.event

theorem ledgerAfter_events (S : Setup) (calls : List Call) :
    ledgerAfter .wrapping S.host (calls.map Call.event) =
      Machine.run (callStep S.host) newState calls :=
  (Machine.run_map Call.event newState calls).symm

theorem Coherent.ledgerAfter {S : Setup} {w : World} (h : Coherent S w) :
    w.ledger = ledgerAfter .wrapping S.host w.events := by
  rw [World.events, ledgerAfter_events]
  exact h.ledger

theorem commits_events (S : Setup) (w : World) :
    Machine.commits (QuietLine.step .wrapping S.host) newState w.events =
      (w.commits S).map fun c => (c.1, c.2.event) :=
  Machine.commits_map Call.event newState w.calls

/-! ### What a move changes -/

/-- The effects a move can have on the ledger, the vault and what has been signed. -/
inductive Changes (S : Setup) (w w' : World) : Prop
  | quiet (ledger : w'.ledger = w.ledger) (commits : w'.commits S = w.commits S)
      (vault : w'.vault = w.vault) (signed : w'.signed = w.signed)
  | committed {pid : Nat} {h : Started} {op : Operation} {k : Response (.mutate op) → Running}
      {ctx : Context} {stored : Bool} {s' : State} (running : w.handlers[pid]? = some h)
      (asks : h.process = .call (.mutate op) k)
      (applied : op.apply .wrapping S.host ctx stored w.ledger = .ok s') (ledger : w'.ledger = s')
      (commits : w'.commits S = w.commits S ++ [(w.ledger,
        { pid, action := h.action, trace := h.trace, event := .operate ctx stored op })])
      (vault : w'.vault = w.vault) (signed : w'.signed = w.signed)
  | confirmed {pid : Nat} {h : Started} {sequence : Nat} {root : String}
      {k : Response (.confirmAnchor sequence root) → Running} {stored : Bool} {s' : State}
      (running : w.handlers[pid]? = some h)
      (asks : h.process = .call (.confirmAnchor sequence root) k)
      (applied : confirmAnchor sequence root stored w.ledger = .ok s') (ledger : w'.ledger = s')
      (commits : w'.commits S = w.commits S ++ [(w.ledger,
        { pid, action := h.action, trace := h.trace, event := .confirm sequence root stored })])
      (vault : w'.vault = w.vault) (signed : w'.signed = w.signed)
  | signed {pid : Nat} {h : Started} {settlement : Settlement}
      {k : Response (.sign settlement) → Running} (running : w.handlers[pid]? = some h)
      (asks : h.process = .call (.sign settlement) k) (ledger : w'.ledger = w.ledger)
      (commits : w'.commits S = w.commits S) (vault : w'.vault = w.vault)
      (signed : w'.signed = w.signed ++ [settlement])
  | transacted {tx : Tx} {call : VaultCall}
      (applied : call.apply S.platform.keccak256 S.config tx w.vault = .ok w'.vault)
      (ledger : w'.ledger = w.ledger) (commits : w'.commits S = w.commits S)
      (signed : w'.signed = w.signed)
  | executed {tx : Tx} {settlement : Settlement} (authorised : settlement ∈ w.signed)
      (applied : w.vault.executeSettlement S.config tx true settlement = .ok w'.vault)
      (ledger : w'.ledger = w.ledger) (commits : w'.commits S = w.commits S)
      (signed : w'.signed = w.signed)

section Changes

variable {S : Setup} {w w' : World} {pid : Nat} {a : Answer}

theorem commits_congr (h : w'.calls = w.calls) : w'.commits S = w.commits S := by
  unfold World.commits
  rw [h]

/-- The commits after one more call. -/
theorem Coherent.commits_call (h : Coherent S w) {c : Call} (hcalls : w'.calls = w.calls ++ [c]) :
    w'.commits S = w.commits S ++ Machine.commits (callStep S.host) w.ledger [c] := by
  unfold World.commits
  rw [hcalls, Machine.commits_append, ← h.ledger]

theorem Coherent.advance_changes (h : Coherent S w) (hw : w.advance S pid a = .ok w') :
    Changes S w w' := by
  obtain ⟨started, r, k, hget, _, hp, hw'⟩ := advance_ok hw
  have hquiet : (w.respond S pid started a r).1 = w → Changes S w w' := by
    intro hsame
    rw [hsame] at hw'
    rw [hw']
    exact .quiet rfl (commits_congr rfl) rfl rfl
  have hrefused : ∀ {c : Call} {cause : LedgerError}, callStep S.host w.ledger c = .error cause →
      (w.respond S pid started a r).1 = { w with calls := w.calls ++ [c] } →
      Changes S w w' := by
    intro c cause hc hsame
    rw [hsame] at hw'
    refine .quiet (by rw [hw']) ?_ (by rw [hw']) (by rw [hw'])
    rw [h.commits_call (c := c) (by rw [hw']), Machine.commits_single_error hc, List.append_nil]
  have haccepted : ∀ {c : Call} {s' : State}, callStep S.host w.ledger c = .ok s' →
      (w.respond S pid started a r).1 =
        { w with calls := w.calls ++ [c], ledger := s', stored := s' } →
      w'.ledger = s' ∧ w'.commits S = w.commits S ++ [(w.ledger, c)] ∧ w'.vault = w.vault ∧
        w'.signed = w.signed := by
    intro c s' hc hsame
    rw [hsame] at hw'
    refine ⟨by rw [hw'], ?_, by rw [hw'], by rw [hw']⟩
    rw [h.commits_call (c := c) (by rw [hw']), Machine.commits_single_ok hc]
  cases r with
  | mutate op =>
      rcases call_cases S { pid, action := started.action, trace := started.trace
                            event := .operate a.ctx a.stored op } w with
        ⟨s', hs', hc⟩ | ⟨cause, hs', hc⟩
      · obtain ⟨hledger, hcommits, hvault, hsigned⟩ := haccepted hs' (congrArg Prod.fst hc)
        exact .committed hget hp hs' hledger hcommits hvault hsigned
      · exact hrefused hs' (congrArg Prod.fst hc)
  | confirmAnchor sequence root =>
      rcases call_cases S { pid, action := started.action, trace := started.trace
                            event := .confirm sequence root a.stored } w with
        ⟨s', hs', hc⟩ | ⟨cause, hs', hc⟩
      · obtain ⟨hledger, hcommits, hvault, hsigned⟩ := haccepted hs' (congrArg Prod.fst hc)
        exact .confirmed hget hp hs' hledger hcommits hvault hsigned
      · exact hrefused hs' (congrArg Prod.fst hc)
  | sign settlement =>
      have hfst : (w.respond S pid started a (.sign settlement)).1 =
          if a.signing = .refused then w else { w with signed := w.signed ++ [settlement] } := rfl
      by_cases hs : a.signing = .refused
      · exact hquiet (by rw [hfst, if_pos hs])
      · rw [hfst, if_neg hs] at hw'
        rw [hw']
        exact .signed hget hp rfl (commits_congr rfl) rfl rfl
  | _ => exact hquiet rfl

theorem Coherent.step_changes {move : Move} (h : Coherent S w) (hw : w.step S move = .ok w') :
    Changes S w w' := by
  cases move with
  | receive action =>
      cases hw
      exact .quiet rfl (commits_congr rfl) rfl rfl
  | advance pid answer => exact h.advance_changes hw
  | transact tx call =>
      obtain ⟨v, hv, rfl⟩ := transact_ok hw
      exact .transacted hv rfl (commits_congr rfl) rfl
  | execute tx settlement =>
      obtain ⟨hmem, v, hv, rfl⟩ := execute_ok hw
      exact .executed hmem hv rfl (commits_congr rfl) rfl
  | restart =>
      cases hw
      exact .quiet h.stored (commits_congr rfl) rfl rfl

theorem Changes.commits_prefix (h : Changes S w w') : w.commits S <+: w'.commits S := by
  cases h with
  | quiet _ hcommits | signed _ _ _ hcommits | transacted _ _ hcommits | executed _ _ _ hcommits =>
      rw [hcommits]
  | committed _ _ _ _ hcommits | confirmed _ _ _ _ hcommits =>
      rw [hcommits]
      exact List.prefix_append _ _

end Changes

end QuietLine
