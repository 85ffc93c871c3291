/-
Programs that answer with a value or an error.

`Except` is how the whole development models code that returns `(value, error)`.
Three things are wanted of such code and nothing here is about any one program.

  * What a successful run says: each guard held, each intermediate value exists.
    `bind_eq_ok` and `rejectIf_eq_ok` turn an equation `program = .ok result`
    into that list, one step at a time.
  * What every run says, failing ones included: `Post`, with one rule per
    statement, so that a proof walks the program in the order it runs.
  * How a program that traps on some event compares with the one that carries on:
    `Traps`, a relation kept by every sequencing step.
-/
import Mathlib.Logic.Basic

namespace Outcome

variable {ε α β : Type}

/-- Leave with `err` when `bad` holds. -/
def rejectIf (bad : Prop) [Decidable bad] (err : ε) : Except ε Unit :=
  if bad then .error err else .ok ()

/-- The value, or `err` when there is none. -/
def orElse (err : ε) : Option α → Except ε α
  | some a => .ok a
  | none => .error err

/-! ### What a success says -/

theorem bind_eq_ok {x : Except ε α} {f : α → Except ε β} {b : β} :
    (x >>= f) = .ok b ↔ ∃ a, x = .ok a ∧ f a = .ok b := by
  cases x with
  | error e => simp [bind, Except.bind]
  | ok a => simp [bind, Except.bind]

@[simp] theorem rejectIf_eq_ok {bad : Prop} [Decidable bad] {err : ε} {u : Unit} :
    rejectIf bad err = .ok u ↔ ¬ bad := by
  unfold rejectIf
  by_cases h : bad <;> simp [h]

theorem rejectIf_of_not {bad : Prop} [Decidable bad] {err : ε} (h : ¬ bad) :
    rejectIf bad err = .ok () :=
  rejectIf_eq_ok.mpr h

theorem rejectIf_of {bad : Prop} [Decidable bad] {err : ε} (h : bad) :
    rejectIf bad err = .error err :=
  if_pos h

@[simp] theorem orElse_eq_ok {err : ε} {o : Option α} {a : α} :
    orElse err o = .ok a ↔ o = some a := by
  cases o <;> simp [orElse]

theorem ok_bind (a : α) (f : α → Except ε β) : ((.ok a : Except ε α) >>= f) = f a := rfl

theorem error_bind (e : ε) (f : α → Except ε β) :
    ((.error e : Except ε α) >>= f) = .error e := rfl

/-- A loop that succeeds: a relation between the work, the start and the result that holds of no
work, and of one more round when it holds of the rest. -/
theorem foldlM_ok {f : β → α → Except ε β} {R : List α → β → β → Prop} (hnil : ∀ b, R [] b b)
    (hcons : ∀ a rest b b' b'', f b a = .ok b' → R rest b' b'' → R (a :: rest) b b'') :
    ∀ {xs : List α} {b b' : β}, xs.foldlM f b = .ok b' → R xs b b' := by
  intro xs
  induction xs with
  | nil =>
      intro b b' h
      cases h
      exact hnil b
  | cons a rest ih =>
      intro b b' h
      rw [List.foldlM_cons, bind_eq_ok] at h
      obtain ⟨b₁, hfirst, hrest⟩ := h
      exact hcons a rest b b₁ b' hfirst (ih hrest)

/-! ### What every run says -/

/-- `Q` of the value on success, `E` of the error otherwise. -/
def Post (x : Except ε α) (Q : α → Prop) (E : ε → Prop) : Prop :=
  match x with
  | .ok a => Q a
  | .error e => E e

namespace Post

variable {x : Except ε α} {f : α → Except ε β} {Q R : α → Prop} {S : β → Prop} {E : ε → Prop}

theorem ok {a : α} (h : Q a) : Post (.ok a : Except ε α) Q E := h

theorem pure {a : α} (h : Q a) : Post (Pure.pure a : Except ε α) Q E := h

theorem error {e : ε} (h : E e) : Post (.error e : Except ε α) Q E := h

/-- Sequencing: what the first part establishes is what the second may use. -/
theorem bind (hx : Post x R E) (hf : ∀ a, R a → Post (f a) S E) : Post (x >>= f) S E := by
  cases x with
  | error e => exact hx
  | ok a => exact hf a hx

theorem rejectIf {bad : Prop} [Decidable bad] {err : ε} {f : Unit → Except ε β}
    (hbad : bad → E err) (hgood : ¬ bad → Post (f ()) S E) :
    Post (Outcome.rejectIf bad err >>= f) S E := by
  unfold Outcome.rejectIf
  by_cases h : bad
  · rw [if_pos h]; exact hbad h
  · rw [if_neg h]; exact hgood h

theorem orElse {err : ε} {o : Option α} (hnone : o = none → E err)
    (hsome : ∀ a, o = some a → Post (f a) S E) : Post (Outcome.orElse err o >>= f) S E := by
  cases o with
  | none => exact hnone rfl
  | some a => exact hsome a rfl

theorem mono (h : Post x Q E) (hQ : ∀ a, Q a → R a) : Post x R E := by
  cases x with
  | error e => exact h
  | ok a => exact hQ a h

theorem of_ok {a : α} (h : Post x Q E) (hx : x = .ok a) : Q a := by
  rw [hx] at h; exact h

theorem of_error {e : ε} (h : Post x Q E) (hx : x = .error e) : E e := by
  rw [hx] at h; exact h

/-- A loop, by an invariant over the work that is left. -/
theorem foldlM {f : β → α → Except ε β} (Inv : List α → β → Prop)
    (hstep : ∀ a rest b, Inv (a :: rest) b → Post (f b a) (Inv rest) E) :
    ∀ {xs : List α} {b : β}, Inv xs b → Post (xs.foldlM f b) (Inv []) E := by
  intro xs
  induction xs with
  | nil => intro b h; exact Post.ok h
  | cons a rest ih =>
      intro b h
      rw [List.foldlM_cons]
      exact Post.bind (hstep a rest b h) fun b' hb' => ih hb'

/-- What is known of success otherwise may be added. -/
theorem strengthen (h : Post x Q E) (hR : ∀ a, x = .ok a → Q a → R a) : Post x R E := by
  cases x with
  | error e => exact h
  | ok a => exact hR a rfl h

/-- A condition on errors alone, from the two readings of a run. -/
theorem of_forall (hQ : ∀ a, x = .ok a → Q a) (hE : ∀ e, x = .error e → E e) : Post x Q E := by
  cases x with
  | error e => exact hE e rfl
  | ok a => exact hQ a rfl

end Post

/-! ### A program and its trapping twin -/

/-- `x` runs as `y` does, unless it stops with `trap`. -/
def Traps (trap : ε) (x y : Except ε α) : Prop := x = .error trap ∨ x = y

namespace Traps

variable {trap : ε} {x y : Except ε α} {f g : α → Except ε β}

theorem refl (x : Except ε α) : Traps trap x x := Or.inr rfl

theorem bind (h : Traps trap x y) (hfg : ∀ a, Traps trap (f a) (g a)) :
    Traps trap (x >>= f) (y >>= g) := by
  rcases h with h | h
  · exact Or.inl (by rw [h]; rfl)
  · subst h
    cases x with
    | error e => exact Or.inr rfl
    | ok a => exact hfg a

theorem bind_same (hfg : ∀ a, Traps trap (f a) (g a)) : Traps trap (x >>= f) (x >>= g) :=
  bind (refl x) hfg

theorem foldlM {f g : β → α → Except ε β} (hfg : ∀ b a, Traps trap (f b a) (g b a)) :
    ∀ (xs : List α) (b : β), Traps trap (xs.foldlM f b) (xs.foldlM g b) := by
  intro xs
  induction xs with
  | nil => intro b; exact refl _
  | cons a rest ih =>
      intro b
      rw [List.foldlM_cons, List.foldlM_cons]
      exact bind (hfg b a) ih

/-- Where the trap is never sprung the two programs agree. -/
theorem eq_of_ne (h : Traps trap x y) (hne : x ≠ .error trap) : x = y :=
  h.resolve_left hne

end Traps

end Outcome
