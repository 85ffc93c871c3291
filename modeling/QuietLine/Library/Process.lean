/-
Processes that run beside one another and act on a shared system.

A process is the tree of the requests it makes, one branch for each answer it may
be given; between two requests anything may happen to the system.  What a process
may ask can depend on what it has been told so far, so a discipline is a predicate
on the exchanges of the past and the next request, and `Obeys` says that a process
keeps to it whatever it is told.  A discipline is proved of a program once, from
the rules for sequencing, and then holds of every process at every point of its
run, because one answered request preserves it (`Obeys.answer`).
-/
import QuietLine.Library.Outcome

/-- A program that makes requests and goes on with the answers. -/
inductive Process (Req : Type) (Res : Req → Type) (α : Type) where
  | done (a : α)
  | call (r : Req) (k : Res r → Process Req Res α)

namespace Process

variable {Req : Type} {Res : Req → Type} {α β ε : Type}

def bind : Process Req Res α → (α → Process Req Res β) → Process Req Res β
  | done a, f => f a
  | call r k, f => call r fun x => (k x).bind f

instance : Monad (Process Req Res) where
  pure := done
  bind := bind

/-- Make one request and return its answer. -/
def perform (r : Req) : Process Req Res (Res r) := call r done

@[simp] theorem pure_eq (a : α) : (pure a : Process Req Res α) = done a := rfl
@[simp] theorem done_bind (a : α) (f : α → Process Req Res β) : done a >>= f = f a := rfl
@[simp] theorem call_bind (r : Req) (k : Res r → Process Req Res α)
    (f : α → Process Req Res β) : call r k >>= f = call r fun x => k x >>= f := rfl

instance : LawfulMonad (Process Req Res) := by
  refine LawfulMonad.mk' _ ?_ (fun _ _ => rfl) ?_
  · intro α p
    induction p with
    | done a => rfl
    | call r k ih => exact congrArg (call r) (funext ih)
  · intro α β γ p f g
    induction p with
    | done a => rfl
    | call r k ih => exact congrArg (call r) (funext ih)

/-! ### Disciplines -/

/-- A request and the answer it was given. -/
structure Exchange (Req : Type) (Res : Req → Type) where
  request : Req
  answer : Res request

instance [DecidableEq Req] [∀ r, DecidableEq (Res r)] : DecidableEq (Exchange Req Res)
  | ⟨r, x⟩, ⟨r', x'⟩ =>
      if h : r = r' then
        decidable_of_iff (h ▸ x = x') (by cases h; simp)
      else
        isFalse fun heq => h (Exchange.mk.inj heq).1

/-- The exchanges of a process so far, the latest first. -/
abbrev Trace (Req : Type) (Res : Req → Type) := List (Exchange Req Res)

/-- From the trace on, the process asks only what `guard` allows, and what it returns meets
`post`. -/
def Obeys (guard : Trace Req Res → Req → Prop) (post : Trace Req Res → α → Prop) :
    Trace Req Res → Process Req Res α → Prop
  | t, done a => post t a
  | t, call r k => guard t r ∧ ∀ x, Obeys guard post (⟨r, x⟩ :: t) (k x)

section Rules

variable {guard : Trace Req Res → Req → Prop} {post post' : Trace Req Res → α → Prop}
  {out : Trace Req Res → β → Prop} {t : Trace Req Res} {p : Process Req Res α}

theorem Obeys.done {a : α} (h : post t a) : Obeys guard post t (done a) := h

/-- The next request is allowed. -/
theorem Obeys.allowed {r : Req} {k : Res r → Process Req Res α}
    (h : Obeys guard post t (call r k)) : guard t r := h.1

/-- Whatever the request is answered, the discipline goes on. -/
theorem Obeys.answer {r : Req} {k : Res r → Process Req Res α}
    (h : Obeys guard post t (call r k)) (x : Res r) : Obeys guard post (⟨r, x⟩ :: t) (k x) :=
  h.2 x

theorem Obeys.mono (h : Obeys guard post t p) (himp : ∀ t a, post t a → post' t a) :
    Obeys guard post' t p := by
  induction p generalizing t with
  | done a => exact himp t a h
  | call r k ih => exact ⟨h.1, fun x => ih x (h.2 x)⟩

/-- A discipline is kept where a stricter one is. -/
theorem Obeys.relax {guard' : Trace Req Res → Req → Prop} (h : Obeys guard post t p)
    (himp : ∀ t r, guard t r → guard' t r) : Obeys guard' post t p := by
  induction p generalizing t with
  | done a => exact h
  | call r k ih => exact ⟨himp t r h.1, fun x => ih x (h.2 x)⟩

/-- From a trace on that nothing can be asked of, any process keeps to the discipline. -/
theorem Obeys.vacuous {V : Trace Req Res → Prop} (hgrow : ∀ x t, V t → V (x :: t))
    (hguard : ∀ t r, V t → guard t r) (hpost : ∀ t a, V t → post t a) (h : V t) :
    Obeys guard post t p := by
  induction p generalizing t with
  | done a => exact hpost t a h
  | call r k ih => exact ⟨hguard t r h, fun x => ih x (hgrow _ _ h)⟩

theorem Obeys.bind {f : α → Process Req Res β} (h : Obeys guard post t p)
    (hf : ∀ t a, post t a → Obeys guard out t (f a)) : Obeys guard out t (p >>= f) := by
  induction p generalizing t with
  | done a => exact hf t a h
  | call r k ih => exact ⟨h.1, fun x => ih x (h.2 x)⟩

theorem Obeys.perform {r : Req} {post : Trace Req Res → Res r → Prop} (h : guard t r)
    (hpost : ∀ x, post (⟨r, x⟩ :: t) x) : Obeys guard post t (Process.perform r) :=
  ⟨h, hpost⟩

end Rules

/-! ### What is left of a process -/

/-- After the exchanges of the trace, `q` is left of the process. -/
def After (p : Process Req Res α) : Trace Req Res → Process Req Res α → Prop
  | [], q => q = p
  | ⟨r, x⟩ :: t, q => ∃ k, After p t (call r k) ∧ q = k x

theorem After.answer {p : Process Req Res α} {t : Trace Req Res} {r : Req}
    {k : Res r → Process Req Res α} (h : After p t (call r k)) (x : Res r) :
    After p (⟨r, x⟩ :: t) (k x) :=
  ⟨k, h, rfl⟩

theorem After.trans {p q r : Process Req Res α} {t t' : Trace Req Res} (h : After p t q)
    (h' : After q t' r) : After p (t' ++ t) r := by
  induction t' generalizing r with
  | nil => obtain rfl := h'; exact h
  | cons x t' ih =>
      obtain ⟨k, hrest, rfl⟩ := h'
      exact (ih hrest).answer x.answer

/-- What is left of a process is what is left of its first part, and the rest. -/
theorem After.bind {p q : Process Req Res α} {t : Trace Req Res} (h : After p t q)
    (f : α → Process Req Res β) : After (p >>= f) t (q >>= f) := by
  induction t generalizing q with
  | nil => obtain rfl := h; rfl
  | cons x t ih =>
      obtain ⟨k, hrest, rfl⟩ := h
      exact (ih hrest).answer x.answer

/-- What is left of a process keeps to the discipline that the process keeps to. -/
theorem Obeys.after {guard : Trace Req Res → Req → Prop} {post : Trace Req Res → α → Prop}
    {p : Process Req Res α} (h : Obeys guard post [] p) :
    ∀ {t : Trace Req Res} {q : Process Req Res α}, After p t q → Obeys guard post t q := by
  intro t
  induction t with
  | nil => rintro q rfl; exact h
  | cons x t ih =>
      rintro q ⟨k, hafter, rfl⟩
      exact (ih hafter).answer x.answer

/-- Whatever the process has asked, it was allowed to ask. -/
theorem Obeys.past {guard : Trace Req Res → Req → Prop} {post : Trace Req Res → α → Prop}
    {p : Process Req Res α} (h : Obeys guard post [] p) {t : Trace Req Res}
    {q : Process Req Res α} (hafter : After p t q) {later earlier : Trace Req Res}
    {x : Exchange Req Res} (ht : t = later ++ x :: earlier) : guard earlier x.request := by
  induction later generalizing t q with
  | nil =>
      obtain rfl := ht
      obtain ⟨k, hrest, _⟩ := hafter
      exact (h.after hrest).allowed
  | cons y later ih =>
      obtain rfl := ht
      obtain ⟨k, hrest, _⟩ := hafter
      exact ih hrest rfl

/-! ### Processes that act on a state of their own

Where a process is the only one to write some part of the system, what it may ask can depend on
that part instead of on what it was told.  `effect` says what a request does to the part and what
it is answered.
-/

section Governed

variable {σ : Type} {effect : (r : Req) → σ → Res r → σ → Prop} {guard : σ → Req → Prop}
  {post post' : σ → α → Prop} {out : σ → β → Prop} {s : σ} {p : Process Req Res α}

/-- From the state on, the process asks only what `guard` allows, and what it returns meets
`post`. -/
def Governed (effect : (r : Req) → σ → Res r → σ → Prop) (guard : σ → Req → Prop)
    (post : σ → α → Prop) : σ → Process Req Res α → Prop
  | s, done a => post s a
  | s, call r k => guard s r ∧ ∀ x s', effect r s x s' → Governed effect guard post s' (k x)

theorem Governed.bind {f : α → Process Req Res β} (h : Governed effect guard post s p)
    (hf : ∀ s a, post s a → Governed effect guard out s (f a)) :
    Governed effect guard out s (p >>= f) := by
  induction p generalizing s with
  | done a => exact hf s a h
  | call r k ih => exact ⟨h.1, fun x s' heffect => ih x (h.2 x s' heffect)⟩

theorem Governed.mono (h : Governed effect guard post s p)
    (himp : ∀ s a, post s a → post' s a) : Governed effect guard post' s p := by
  induction p generalizing s with
  | done a => exact himp s a h
  | call r k ih => exact ⟨h.1, fun x s' heffect => ih x (h.2 x s' heffect)⟩

/-- A process that asks only what leaves the state alone may be in the state it is in. -/
theorem Governed.idle (idle : Req → Prop)
    (h : Obeys (fun _ r => idle r) (fun _ _ => True) t p) (hguard : ∀ r, idle r → guard s r)
    (hidle : ∀ r x s', idle r → effect r s x s' → s' = s) :
    Governed effect guard (fun s' _ => s' = s) s p := by
  induction p generalizing t with
  | done a => rfl
  | call r k ih =>
      refine ⟨hguard r h.1, fun x s' heffect => ?_⟩
      obtain rfl := hidle r x s' h.1 heffect
      exact ih x (h.2 x)

end Governed

/-! ### How long a process is -/

/-- Whatever it is answered, the process makes at most `n` more requests. -/
def Within : Nat → Process Req Res α → Prop
  | _, done _ => True
  | 0, call .. => False
  | n + 1, call _ k => ∀ x, Within n (k x)

section Within

variable {m n : Nat} {p : Process Req Res α}

theorem Within.done (n : Nat) (a : α) : Within n (done a : Process Req Res α) := by
  cases n <;> exact trivial

theorem Within.mono (h : Within m p) (hmn : m ≤ n) : Within n p := by
  induction p generalizing m n with
  | done a => exact Within.done n a
  | call r k ih =>
      cases m with
      | zero => exact h.elim
      | succ m =>
          obtain ⟨n, rfl⟩ := Nat.exists_eq_add_of_le' (Nat.zero_lt_of_lt hmn)
          exact fun x => ih x (h x) (Nat.le_of_succ_le_succ hmn)

theorem Within.bind {f : α → Process Req Res β} (h : Within m p) (hf : ∀ a, Within n (f a)) :
    Within (m + n) (p >>= f) := by
  induction p generalizing m with
  | done a => exact (hf a).mono (Nat.le_add_left n m)
  | call r k ih =>
      cases m with
      | zero => exact h.elim
      | succ m =>
          rw [Nat.succ_add]
          exact fun x => ih x (h x)

/-- A process that waits for an answer still has a request to make. -/
theorem Within.pos {r : Req} {k : Res r → Process Req Res α} (h : Within n (call r k)) :
    ∃ m, n = m + 1 ∧ ∀ x, Within m (k x) := by
  cases n with
  | zero => exact h.elim
  | succ m => exact ⟨m, rfl, h⟩

end Within

/-! ### Programs that can fail -/

/-- A process that returns an error or a value. -/
abbrev Fallible (ε : Type) (Req : Type) (Res : Req → Type) := ExceptT ε (Process Req Res)

namespace Fallible

def perform (r : Req) : Fallible ε Req Res (Res r) := ExceptT.lift (Process.perform r)

/-- Go on with an outcome. -/
def ofExcept (x : Except ε α) : Fallible ε Req Res α := ExceptT.mk (Process.done x)

/-- What a fallible program returns meets `ok`, the errors it stops with meet `fail`. -/
def outcome (ok : Trace Req Res → α → Prop) (fail : Trace Req Res → ε → Prop)
    (t : Trace Req Res) : Except ε α → Prop
  | .ok a => ok t a
  | .error e => fail t e

section Rules

variable {guard : Trace Req Res → Req → Prop} {ok ok' : Trace Req Res → α → Prop}
  {out : Trace Req Res → β → Prop} {fail : Trace Req Res → ε → Prop} {t : Trace Req Res}

/-- The fallible program keeps to the discipline from the trace on. -/
def Obeys (guard : Trace Req Res → Req → Prop) (ok : Trace Req Res → α → Prop)
    (fail : Trace Req Res → ε → Prop) (t : Trace Req Res) (x : Fallible ε Req Res α) : Prop :=
  Process.Obeys guard (outcome ok fail) t x.run

theorem Obeys.pure {a : α} (h : ok t a) :
    Obeys guard ok fail t (Pure.pure a : Fallible ε Req Res α) := h

theorem Obeys.throw {e : ε} (h : fail t e) :
    Obeys guard ok fail t (throw e : Fallible ε Req Res α) := h

theorem Obeys.bind {x : Fallible ε Req Res α} {f : α → Fallible ε Req Res β}
    (h : Obeys guard ok fail t x) (hf : ∀ t a, ok t a → Obeys guard out fail t (f a)) :
    Obeys guard out fail t (x >>= f) := by
  refine Process.Obeys.bind h ?_
  intro t r hr
  cases r with
  | ok a => exact hf t a hr
  | error e => exact hr

theorem Obeys.perform {r : Req} {ok : Trace Req Res → Res r → Prop} (h : guard t r)
    (hok : ∀ x, ok (⟨r, x⟩ :: t) x) :
    Obeys guard ok fail t (Fallible.perform r : Fallible ε Req Res (Res r)) :=
  ⟨h, hok⟩

/-- A request, and what is done with its answer. -/
theorem Obeys.ask {r : Req} {f : Res r → Fallible ε Req Res β} (h : guard t r)
    (hf : ∀ x, Obeys guard out fail (⟨r, x⟩ :: t) (f x)) :
    Obeys guard out fail t (Fallible.perform r >>= f) :=
  ⟨h, hf⟩

theorem Obeys.ofExcept {x : Except ε α} {f : α → Fallible ε Req Res β}
    (herror : ∀ e, x = .error e → fail t e)
    (hok : ∀ a, x = .ok a → Obeys guard out fail t (f a)) :
    Obeys guard out fail t (Fallible.ofExcept x >>= f) := by
  cases x with
  | ok a => exact hok a rfl
  | error e => exact herror e rfl

/-- What is thrown is handled. -/
theorem Obeys.tryCatch {x : Fallible ε Req Res α} {handler : ε → Fallible ε Req Res α}
    {fail' : Trace Req Res → ε → Prop} (h : Obeys guard ok fail' t x)
    (hhandler : ∀ t e, fail' t e → Obeys guard ok fail t (handler e)) :
    Obeys guard ok fail t (tryCatch x handler) := by
  refine Process.Obeys.bind h ?_
  intro t r hr
  cases r with
  | ok a => exact hr
  | error e => exact hhandler t e hr

theorem Obeys.mono {x : Fallible ε Req Res α} {fail' : Trace Req Res → ε → Prop}
    (h : Obeys guard ok fail t x) (hok : ∀ t a, ok t a → ok' t a)
    (hfail : ∀ t e, fail t e → fail' t e) : Obeys guard ok' fail' t x := by
  refine Process.Obeys.mono h ?_
  intro t r hr
  cases r with
  | ok a => exact hok t a hr
  | error e => exact hfail t e hr

end Rules

section Governed

variable {σ : Type} {effect : (r : Req) → σ → Res r → σ → Prop} {guard : σ → Req → Prop}
  {ok : σ → α → Prop} {out : σ → β → Prop} {fail fail' : σ → ε → Prop} {s : σ}

/-- A result that meets `ok`, or an error that meets `fail`, in the state. -/
def result (ok : σ → α → Prop) (fail : σ → ε → Prop) (s : σ) : Except ε α → Prop
  | .ok a => ok s a
  | .error e => fail s e

/-- From the state on, the program asks only what `guard` allows; what it returns meets `ok`, what
it throws meets `fail`. -/
def Governed (effect : (r : Req) → σ → Res r → σ → Prop) (guard : σ → Req → Prop)
    (ok : σ → α → Prop) (fail : σ → ε → Prop) (s : σ) (x : Fallible ε Req Res α) : Prop :=
  Process.Governed effect guard (result ok fail) s x.run

theorem Governed.pure {a : α} (h : ok s a) :
    Governed effect guard ok fail s (Pure.pure a : Fallible ε Req Res α) := h

theorem Governed.throw {e : ε} (h : fail s e) :
    Governed effect guard ok fail s (throw e : Fallible ε Req Res α) := h

theorem Governed.ask {r : Req} {f : Res r → Fallible ε Req Res β} (h : guard s r)
    (hf : ∀ x s', effect r s x s' → Governed effect guard out fail s' (f x)) :
    Governed effect guard out fail s (Fallible.perform r >>= f) :=
  ⟨h, hf⟩

theorem Governed.bind {x : Fallible ε Req Res α} {f : α → Fallible ε Req Res β}
    (h : Governed effect guard ok fail s x)
    (hf : ∀ s a, ok s a → Governed effect guard out fail s (f a)) :
    Governed effect guard out fail s (x >>= f) := by
  refine Process.Governed.bind h fun s r hr => ?_
  cases r with
  | ok a => exact hf s a hr
  | error e => exact hr

theorem Governed.tryCatch {x : Fallible ε Req Res α} {handler : ε → Fallible ε Req Res α}
    (h : Governed effect guard ok fail' s x)
    (hhandler : ∀ s e, fail' s e → Governed effect guard ok fail s (handler e)) :
    Governed effect guard ok fail s (tryCatch x handler) := by
  refine Process.Governed.bind h fun s r hr => ?_
  cases r with
  | ok a => exact hr
  | error e => exact hhandler s e hr

/-- A program that leaves the state alone comes first. -/
theorem Governed.idle (idle : Req → Prop) {x : Fallible ε Req Res α}
    {f : α → Fallible ε Req Res β}
    (h : Process.Obeys (fun _ r => idle r) (fun _ _ => True) [] x.run)
    (hguard : ∀ r, idle r → guard s r) (hidle : ∀ r y s', idle r → effect r s y s' → s' = s)
    (hfail : ∀ e, fail s e) (hf : ∀ a, Governed effect guard out fail s (f a)) :
    Governed effect guard out fail s (x >>= f) := by
  refine Process.Governed.bind (Process.Governed.idle idle h hguard hidle) ?_
  rintro _ r rfl
  cases r with
  | ok a => exact hf a
  | error e => exact hfail e

end Governed

section Within

variable {m n : Nat}

/-- Whatever it is answered, the program makes at most `n` requests. -/
def Within (n : Nat) (x : Fallible ε Req Res α) : Prop := Process.Within n x.run

theorem Within.pure (n : Nat) (a : α) : Within n (Pure.pure a : Fallible ε Req Res α) :=
  Process.Within.done n (Except.ok a : Except ε α)

theorem Within.throw (n : Nat) (e : ε) : Within n (throw e : Fallible ε Req Res α) :=
  Process.Within.done n (Except.error e : Except ε α)

theorem Within.ask {r : Req} {f : Res r → Fallible ε Req Res β} (hf : ∀ x, Within n (f x)) :
    Within (n + 1) (Fallible.perform r >>= f) :=
  fun x => hf x

theorem Within.ofExcept {x : Except ε α} {f : α → Fallible ε Req Res β}
    (hf : ∀ a, Within n (f a)) : Within n (Fallible.ofExcept x >>= f) := by
  cases x with
  | ok a => exact hf a
  | error e => exact Within.throw n e

theorem Within.mono {x : Fallible ε Req Res α} (h : Within m x) (hmn : m ≤ n) : Within n x :=
  Process.Within.mono h hmn

theorem Within.bind {x : Fallible ε Req Res α} {f : α → Fallible ε Req Res β} (h : Within m x)
    (hf : ∀ a, Within n (f a)) : Within (m + n) (x >>= f) := by
  refine Process.Within.bind h fun r => ?_
  cases r with
  | ok a => exact hf a
  | error e => exact Within.throw n e

theorem Within.tryCatch {x : Fallible ε Req Res α} {handler : ε → Fallible ε Req Res α}
    (h : Within m x) (hhandler : ∀ e, Within n (handler e)) :
    Within (m + n) (tryCatch x handler) := by
  refine Process.Within.bind h fun r => ?_
  cases r with
  | ok a => exact Process.Within.done n _
  | error e => exact hhandler e

end Within

/-! ### Results under a condition

Where all that a program was told meets a condition, its result can be known.
-/

section Tells

variable {seen : Trace Req Res → Prop} {post post' : Except ε β → Prop} {t : Trace Req Res}

/-- If the trace it ends with meets `seen`, the result of the program meets `post`. -/
def Tells (seen : Trace Req Res → Prop) (post : Except ε α → Prop) (t : Trace Req Res)
    (x : Fallible ε Req Res α) : Prop :=
  Process.Obeys (fun _ _ => True) (fun t r => seen t → post r) t x.run

/-- The condition is on every exchange of the past. -/
def Antitone (seen : Trace Req Res → Prop) : Prop := ∀ x t, seen (x :: t) → seen t

/-- Once the condition is broken a program tells nothing. -/
theorem Tells.unseen (hseen : Antitone seen) (h : ¬ seen t) (x : Fallible ε Req Res β) :
    Tells seen post t x := by
  refine Process.Obeys.vacuous (V := fun t => ¬ seen t) ?_ (fun _ _ _ => trivial) ?_ h
  · exact fun y t hnot hafter => hnot (hseen y t hafter)
  · exact fun t r hnot hafter => absurd hafter hnot

theorem Tells.pure {b : β} (h : post (.ok b)) :
    Tells seen post t (Pure.pure b : Fallible ε Req Res β) :=
  fun _ => h

theorem Tells.throw {e : ε} (h : post (.error e)) :
    Tells seen post t (throw e : Fallible ε Req Res β) :=
  fun _ => h

/-- The next request is answered within the condition. -/
theorem Tells.ask (hseen : Antitone seen) {r : Req} {f : Res r → Fallible ε Req Res β}
    (hf : ∀ x, seen (⟨r, x⟩ :: t) → Tells seen post (⟨r, x⟩ :: t) (f x)) :
    Tells seen post t (Fallible.perform r >>= f) := by
  refine ⟨trivial, fun x => ?_⟩
  by_cases hx : seen (⟨r, x⟩ :: t)
  · exact hf x hx
  · exact Tells.unseen hseen hx (f x)

theorem Tells.ofExcept {x : Except ε α} {a : α} {f : α → Fallible ε Req Res β} (hx : x = .ok a)
    (hf : Tells seen post t (f a)) : Tells seen post t (Fallible.ofExcept x >>= f) := by
  rw [hx]
  exact hf

/-- A program whose result is known comes first. -/
theorem Tells.bind (hseen : Antitone seen) {x : Fallible ε Req Res α}
    {f : α → Fallible ε Req Res β} {told : α → Prop}
    (hx : Tells seen (fun r => ∃ a, r = .ok a ∧ told a) t x)
    (hf : ∀ a t, told a → Tells seen post t (f a)) : Tells seen post t (x >>= f) := by
  refine Process.Obeys.bind hx fun t r hr => ?_
  by_cases ht : seen t
  · obtain ⟨a, rfl, ha⟩ := hr ht
    exact hf a t ha
  · cases r with
    | ok a => exact Tells.unseen hseen ht (f a)
    | error e => exact fun hafter => absurd hafter ht

/-- A program that does not end within the condition is not gone on from. -/
theorem Tells.endless (hseen : Antitone seen) {x : Fallible ε Req Res α}
    (hx : Tells seen (fun _ => False) t x) (f : α → Fallible ε Req Res β) :
    Tells seen post t (x >>= f) :=
  Tells.bind hseen (hx.mono fun _ _ h ht => (h ht).elim) fun _ _ h => False.elim h

theorem Tells.tryCatch {x : Fallible ε Req Res β} {handler : ε → Fallible ε Req Res β}
    (hx : Tells seen (fun _ => False) t x) (hseen : Antitone seen) :
    Tells seen post t (tryCatch x handler) := by
  refine Process.Obeys.bind hx fun t r hr => ?_
  cases r with
  | ok a => exact fun ht => (hr ht).elim
  | error e => exact Tells.unseen hseen (fun ht => hr ht) (handler e)

end Tells

end Fallible

end Process
