/-
What the trace of a handler says about the run.

Two facts are needed of it.

  * What is left of a handler is its program after the exchanges of its trace, so a
    discipline of the program holds of the handler wherever it has got to.
  * Its exchanges were answered one after the other along the run, each by the system as
    it then was.
-/
import QuietLine.Proofs.Coherence

namespace QuietLine

open Process

/-! ### What a program ends with -/

/-- From the trace on, whatever it asks, what the program returns meets `ok`. -/
abbrev Ends {α : Type} (t : Trace) (x : Handler α) (ok : Trace → α → Prop) : Prop :=
  Fallible.Obeys (fun _ _ => True) ok (fun _ _ => True) t x

section Rules

variable {α β : Type} {t : Trace} {ok : Trace → α → Prop} {out : Trace → β → Prop}

theorem Ends.attempt {x : Except HandlerError α} {f : α → Handler β}
    (h : ∀ a, x = .ok a → Ends t (f a) out) : Ends t (Handler.attempt x >>= f) out :=
  Fallible.Obeys.ofExcept (fun _ _ => trivial) h

theorem Ends.orElse {o : Option α} {err : HandlerError} {f : α → Handler β}
    (h : ∀ a, o = some a → Ends t (f a) out) : Ends t (Handler.orElse err o >>= f) out :=
  Ends.attempt fun a ha => h a (Outcome.orElse_eq_ok.mp ha)

theorem Ends.rejectIf {bad : Prop} [Decidable bad] {err : HandlerError} {f : Unit → Handler β}
    (h : Ends t (f ()) out) : Ends t (Handler.rejectIf bad err >>= f) out :=
  Ends.attempt fun _ _ => h

theorem Ends.ask {r : Request} {f : Response r → Handler β}
    (h : ∀ x, Ends (⟨r, x⟩ :: t) (f x) out) : Ends t (Handler.perform r >>= f) out :=
  Fallible.Obeys.ask trivial h

theorem Ends.ite {c : Prop} [Decidable c] {x y : Handler α} (hx : c → Ends t x ok)
    (hy : ¬ c → Ends t y ok) : Ends t (if c then x else y) ok := by
  by_cases h : c
  · rw [if_pos h]; exact hx h
  · rw [if_neg h]; exact hy h

/-- A discipline tells what the program ends with. -/
theorem KeepsTo.ends {P : Platform} {cfg : Config} {action : Action} {x : Handler α}
    {ok' : Trace → α → Prop} (h : KeepsTo P cfg action t x ok)
    (himp : ∀ t a, ok t a → ok' t a) : Ends t x ok' :=
  Fallible.Obeys.mono (Process.Obeys.relax h fun _ _ _ => trivial) himp fun _ _ h => h

/-- What is known of a trace is known of every longer one, whatever program runs in between. -/
theorem Ends.bind_any {K : Trace → Prop} (hgrow : ∀ x t, K t → K (x :: t)) (hK : K t)
    (x : Handler α) {f : α → Handler β} (h : ∀ t a, K t → Ends t (f a) out) :
    Ends t (x >>= f) out := by
  have hx : Ends t x fun t _ => K t := by
    refine Process.Obeys.vacuous (V := K) hgrow (fun _ _ _ => trivial) (fun t r ht => ?_) hK
    cases r with
    | ok a => exact ht
    | error e => trivial
  exact Fallible.Obeys.bind hx h

/-- A program of which nothing is known comes first. -/
theorem Ends.after (x : Handler α) {f : α → Handler β} (h : ∀ t a, Ends t (f a) out) :
    Ends t (x >>= f) out :=
  Ends.bind_any (K := fun _ => True) (fun _ _ h => h) trivial x fun t a _ => h t a

end Rules

/-! ### The handlers of a run -/

/-- The move tells handler `pid` this. -/
def World.Tells (S : Setup) (pid : Nat) (x : Exchange) (w : World) (move : Move) : Prop :=
  ∃ (started : Started) (a : Answer), move = .advance pid a ∧ w.handlers[pid]? = some started ∧
    x.answer = (w.respond S pid started a x.request).2

/-- Every handler is its program after its trace, and its trace is of the run. -/
structure Traced (S : Setup) (moves : List Move) (w : World) : Prop where
  resumes : ∀ (pid : Nat) (h : Started), w.handlers[pid]? = some h →
    After (processAction S.platform S.config h.action).run h.trace h.process
  answered : ∀ (pid : Nat) (h : Started), w.handlers[pid]? = some h →
    Machine.Chronicle (World.step S) (World.Tells S pid) {} h.trace moves

section Traced

variable {S : Setup} {moves : List Move} {w w' : World}

theorem Traced.later {moves' : List Move} (h : Traced S moves w) (hlonger : moves <+: moves') :
    Traced S moves' w :=
  ⟨h.resumes, fun pid started hget => (h.answered pid started hget).later hlonger⟩

theorem Traced.step {move : Move} (h : Traced S moves (worldAfter S moves))
    (hw : (worldAfter S moves).step S move = .ok w') : Traced S (moves ++ [move]) w' := by
  have hlater := h.later (List.prefix_append moves [move])
  constructor
  · intro pid started hget
    rcases step_handlers hw hget with ⟨before, hbefore, rfl⟩ | ⟨_, htrace, hprocess⟩ |
      ⟨a, before, r, k, _, hbefore, hp, rfl⟩
    · exact hlater.resumes pid started hbefore
    · rw [htrace, hprocess]
      exact rfl
    · have hresumes := hlater.resumes pid before hbefore
      rw [hp] at hresumes
      exact hresumes.answer _
  · intro pid started hget
    rcases step_handlers hw hget with ⟨before, hbefore, rfl⟩ | ⟨_, htrace, _⟩ |
      ⟨a, before, r, k, hmove, hbefore, _, rfl⟩
    · exact hlater.answered pid started hbefore
    · rw [htrace]
      trivial
    · exact (h.answered pid before hbefore).snoc ⟨before, a, hmove, hbefore, rfl⟩

theorem traced_worldAfter (S : Setup) (moves : List Move) :
    Traced S moves (worldAfter S moves) :=
  Machine.invariant_along
    ⟨fun pid h hget => by simp at hget, fun pid h hget => by simp at hget⟩
    (fun moves move _ h _ => h.later (List.prefix_append moves [move]))
    (fun _ _ _ h hw => h.step hw) moves

/-- **What every program of a discipline returns, every handler that is done has returned.** -/
theorem Traced.returned {post : Trace → Except HandlerError Reply → Prop} (h : Traced S moves w)
    {pid : Nat} {started : Started} (hget : w.handlers[pid]? = some started)
    (hobeys : Obeys (fun _ _ => True) post []
      (processAction S.platform S.config started.action).run)
    {r : Except HandlerError Reply} (hdone : started.process = .done r) : post started.trace r := by
  have hresumes := h.resumes pid started hget
  rw [hdone] at hresumes
  exact hobeys.after hresumes

/-- A longer run takes nothing back. -/
theorem extends_worldAfter (S : Setup) {before moves : List Move} (h : before <+: moves) :
    Extends (worldAfter S before) (worldAfter S moves) := by
  obtain ⟨rest, rfl⟩ := h
  have hrun : worldAfter S (before ++ rest) =
      Machine.run (World.step S) (worldAfter S before) rest := Machine.run_append _ _ _
  rw [hrun]
  refine Machine.invariant ?_ (Extends.refl _) rest
  exact fun _ _ _ hext hw => hext.trans (step_extends hw)

end Traced

end QuietLine
