/-
Machines that answer each input with a new state or an error.

A machine is a function `step : σ → α → Except ε σ`.  An input it refuses leaves
the state alone, so a run is a plain fold over the inputs and its committed part
is the sublist the machine accepted.  What is proved of a machine is proved once
per accepted step and carried to whole runs by `invariant`, or, when the property
only holds of runs whose steps meet a condition, by `invariant_of_meets`.
-/
import Mathlib.Algebra.GroupWithZero.Nat
import Mathlib.Data.List.Induction
import QuietLine.Library.Outcome

namespace Machine

variable {σ α ε : Type} (step : σ → α → Except ε σ)

/-- The state after one input, refused inputs included. -/
def next (s : σ) (a : α) : σ :=
  match step s a with
  | .ok s' => s'
  | .error _ => s

/-- The state after a list of inputs. -/
def run (s : σ) (inputs : List α) : σ := inputs.foldl (next step) s

/-- The inputs a run accepts, each with the state it was accepted in. -/
def commits : σ → List α → List (σ × α)
  | _, [] => []
  | s, a :: rest =>
      match step s a with
      | .ok s' => (s, a) :: commits s' rest
      | .error _ => commits s rest

/-- Every input the run accepts meets `G` in the state that accepts it. -/
def Meets (G : σ → α → Prop) (s : σ) (inputs : List α) : Prop :=
  ∀ c ∈ commits step s inputs, G c.1 c.2

variable {step}

theorem next_ok {s s' : σ} {a : α} (h : step s a = .ok s') : next step s a = s' := by
  simp [next, h]

theorem next_error {s : σ} {a : α} {e : ε} (h : step s a = .error e) : next step s a = s := by
  simp [next, h]

@[simp] theorem run_nil (s : σ) : run step s [] = s := rfl

@[simp] theorem run_cons (s : σ) (a : α) (rest : List α) :
    run step s (a :: rest) = run step (next step s a) rest := rfl

theorem run_append (s : σ) (as bs : List α) :
    run step s (as ++ bs) = run step (run step s as) bs := by
  simp [run, List.foldl_append]

theorem commits_append (s : σ) (as bs : List α) :
    commits step s (as ++ bs) = commits step s as ++ commits step (run step s as) bs := by
  induction as generalizing s with
  | nil => rfl
  | cons a rest ih =>
      cases h : step s a with
      | error e => simp [commits, h, ih, next_error h]
      | ok s' => simp [commits, h, ih, next_ok h]

theorem commits_single_ok {s s' : σ} {a : α} (h : step s a = .ok s') :
    commits step s [a] = [(s, a)] := by
  simp [commits, h]

theorem commits_single_error {s : σ} {a : α} {e : ε} (h : step s a = .error e) :
    commits step s [a] = [] := by
  simp [commits, h]

/-- A machine that reads its inputs through `f` runs as the other does on what `f` makes of
them. -/
theorem run_map {β : Type} (f : β → α) (s : σ) (inputs : List β) :
    run (fun s b => step s (f b)) s inputs = run step s (inputs.map f) := by
  simp only [run, List.foldl_map]
  rfl

theorem commits_map {β : Type} (f : β → α) (s : σ) (inputs : List β) :
    commits step s (inputs.map f) =
      (commits (fun s b => step s (f b)) s inputs).map fun c => (c.1, f c.2) := by
  induction inputs generalizing s with
  | nil => rfl
  | cons b rest ih =>
      simp only [List.map_cons, commits]
      cases step s (f b) with
      | error e => exact ih s
      | ok s' => simp [ih]

/-! ### Runs whose steps meet a condition -/

@[simp] theorem meets_nil {G : σ → α → Prop} (s : σ) : Meets step G s [] := by
  intro c hc
  simp [commits] at hc

theorem meets_append {G : σ → α → Prop} {s : σ} {as bs : List α} :
    Meets step G s (as ++ bs) ↔ Meets step G s as ∧ Meets step G (run step s as) bs := by
  simp only [Meets, commits_append, List.mem_append, or_imp, forall_and]

theorem meets_single {G : σ → α → Prop} {s : σ} {a : α} (h : G s a) : Meets step G s [a] := by
  intro c hc
  cases hs : step s a with
  | error e => simp [commits, hs] at hc
  | ok s' =>
      simp only [commits, hs, List.mem_singleton] at hc
      rw [hc]
      exact h

theorem Meets.cons_ok {G : σ → α → Prop} {s s' : σ} {a : α} {rest : List α}
    (hstep : step s a = .ok s') (h : Meets step G s (a :: rest)) :
    G s a ∧ Meets step G s' rest := by
  simp only [Meets, commits, hstep, List.mem_cons, forall_eq_or_imp] at h
  exact h

theorem Meets.cons_error {G : σ → α → Prop} {s : σ} {a : α} {e : ε} {rest : List α}
    (hstep : step s a = .error e) (h : Meets step G s (a :: rest)) : Meets step G s rest := by
  simpa only [Meets, commits, hstep] using h

theorem Meets.mono {G H : σ → α → Prop} {s : σ} {inputs : List α}
    (h : Meets step G s inputs) (hGH : ∀ s a, G s a → H s a) : Meets step H s inputs :=
  fun c hc => hGH _ _ (h c hc)

theorem meets_of_forall {G : α → Prop} (s : σ) {inputs : List α} (h : ∀ a ∈ inputs, G a) :
    Meets step (fun _ a => G a) s inputs := by
  induction inputs generalizing s with
  | nil => exact meets_nil s
  | cons a rest ih =>
      obtain ⟨ha, hrest⟩ := List.forall_mem_cons.mp h
      exact meets_append.mpr ⟨meets_single ha, ih _ hrest⟩

theorem meets_true (s : σ) (inputs : List α) : Meets step (fun _ _ => True) s inputs :=
  fun _ _ => trivial

/-! ### The invariant rules -/

/-- What every accepted step that meets `G` keeps, a run that meets `G` keeps. -/
theorem invariant_of_meets {G : σ → α → Prop} {Inv : σ → Prop}
    (hstep : ∀ s a s', Inv s → G s a → step s a = .ok s' → Inv s') {s : σ} (h0 : Inv s) :
    ∀ inputs : List α, Meets step G s inputs → Inv (run step s inputs) := by
  intro inputs
  induction inputs generalizing s with
  | nil => intro _; exact h0
  | cons a rest ih =>
      intro hmeets
      cases h : step s a with
      | error e =>
          rw [run_cons, next_error h]
          exact ih h0 (hmeets.cons_error h)
      | ok s' =>
          obtain ⟨hG, hrest⟩ := hmeets.cons_ok h
          rw [run_cons, next_ok h]
          exact ih (hstep s a s' h0 hG h) hrest

/-- What every accepted step keeps, every run keeps. -/
theorem invariant {Inv : σ → Prop} (hstep : ∀ s a s', Inv s → step s a = .ok s' → Inv s')
    {s : σ} (h0 : Inv s) (inputs : List α) : Inv (run step s inputs) :=
  invariant_of_meets (G := fun _ _ => True) (fun s a s' hi _ h => hstep s a s' hi h) h0 inputs
    (meets_true s inputs)

/-! ### What a state remembers of its run -/

/-- A fact that each accepted step either had or just made true was true at the start or made true
by one of the commits. -/
theorem tracked {P : σ → Prop} {M : α → Prop}
    (hstep : ∀ s a s', step s a = .ok s' → (P s' ↔ P s ∨ M a)) (s : σ) (inputs : List α) :
    P (run step s inputs) ↔ P s ∨ ∃ c ∈ commits step s inputs, M c.2 := by
  induction inputs generalizing s with
  | nil => simp [commits]
  | cons a rest ih =>
      cases h : step s a with
      | error e => rw [run_cons, next_error h, ih]; simp [commits, h]
      | ok s' =>
          rw [run_cons, next_ok h, ih, hstep s a s' h]
          simp [commits, h, or_assoc]

/-- A figure that each accepted step raises by the weight of its input is the weight of the
commits. -/
theorem counted {f : σ → Nat} {w : α → Nat}
    (hstep : ∀ s a s', step s a = .ok s' → f s' = f s + w a) (s : σ) (inputs : List α) :
    f (run step s inputs) = f s + ((commits step s inputs).map fun c => w c.2).sum := by
  induction inputs generalizing s with
  | nil => simp [commits]
  | cons a rest ih =>
      cases h : step s a with
      | error e => rw [run_cons, next_error h, ih]; simp [commits, h]
      | ok s' =>
          rw [run_cons, next_ok h, ih, hstep s a s' h]
          simp [commits, h, Nat.add_assoc]

/-- The weight of what the run accepts. -/
def weight (step : σ → α → Except ε σ) (w : α → Nat) (s : σ) (inputs : List α) : Nat :=
  ((commits step s inputs).map fun c => w c.2).sum

/-- Where each accepted step that meets `G` takes its weight from what is left, or reaches `Goal`, a
run that accepts more than was left reaches `Goal`. -/
theorem spent {G : σ → α → Prop} {w : α → Nat} {Left : Nat → σ → Prop} {Goal : σ → Prop}
    (hstep : ∀ n s a s', Left n s → G s a → step s a = .ok s' →
      Goal s' ∨ ∃ m, m + w a = n ∧ Left m s')
    (hgoal : ∀ s a s', Goal s → G s a → step s a = .ok s' → Goal s') {n : Nat} {s : σ}
    (h0 : Left n s) : ∀ inputs : List α, Meets step G s inputs →
      Goal (run step s inputs) ∨
        ∃ m, m + weight step w s inputs = n ∧ Left m (run step s inputs) := by
  intro inputs
  induction inputs generalizing n s with
  | nil => exact fun _ => Or.inr ⟨n, rfl, h0⟩
  | cons a rest ih =>
      intro hmeets
      cases h : step s a with
      | error e =>
          rw [run_cons, next_error h, weight, commits, h]
          exact ih h0 (hmeets.cons_error h)
      | ok s' =>
          obtain ⟨hG, hrest⟩ := hmeets.cons_ok h
          have hweight : weight step w s (a :: rest) = w a + weight step w s' rest := by
            simp [weight, commits, h]
          rw [run_cons, next_ok h, hweight]
          rcases hstep n s a s' h0 hG h with hreached | ⟨m, hm, hleft⟩
          · exact Or.inl (invariant_of_meets hgoal hreached rest hrest)
          · rcases ih hleft hrest with hreached | ⟨k, hk, hleft'⟩
            · exact Or.inl hreached
            · exact Or.inr ⟨k, by omega, hleft'⟩

/-- Every accepted input was accepted in a state the run had reached. -/
theorem exists_prefix_of_mem_commits {s : σ} {inputs : List α} {c : σ × α}
    (hc : c ∈ commits step s inputs) :
    ∃ before after s', inputs = before ++ c.2 :: after ∧ c.1 = run step s before ∧
      step c.1 c.2 = .ok s' := by
  induction inputs generalizing s with
  | nil => simp [commits] at hc
  | cons a rest ih =>
      cases h : step s a with
      | error e =>
          simp only [commits, h] at hc
          obtain ⟨before, after, s', hin, hst, hok⟩ := ih hc
          exact ⟨a :: before, after, s', by rw [hin]; rfl, by rw [run_cons, next_error h]; exact hst, hok⟩
      | ok s₁ =>
          simp only [commits, h, List.mem_cons] at hc
          rcases hc with rfl | hc
          · exact ⟨[], rest, s₁, rfl, rfl, h⟩
          · obtain ⟨before, after, s', hin, hst, hok⟩ := ih hc
            exact ⟨a :: before, after, s', by rw [hin]; rfl, by rw [run_cons, next_ok h]; exact hst, hok⟩

/-- An invariant of the state and of the commits that led to it. -/
theorem history (Inv : List (σ × α) → σ → Prop)
    (hstep : ∀ past s a s', Inv past s → step s a = .ok s' → Inv (past ++ [(s, a)]) s') {s : σ}
    (h0 : Inv [] s) (inputs : List α) : Inv (commits step s inputs) (run step s inputs) := by
  have hgeneral : ∀ (inputs : List α) (past : List (σ × α)) (s : σ), Inv past s →
      Inv (past ++ commits step s inputs) (run step s inputs) := by
    intro inputs
    induction inputs with
    | nil => intro past s h; simpa [commits] using h
    | cons a rest ih =>
        intro past s h
        cases hs : step s a with
        | error e =>
            rw [run_cons, next_error hs]
            simpa only [commits, hs] using ih past s h
        | ok s' =>
            rw [run_cons, next_ok hs]
            simp only [commits, hs]
            rw [List.append_cons]
            exact ih (past ++ [(s, a)]) s' (hstep past s a s' h hs)
  exact hgeneral inputs [] s h0

/-- What a commit makes true and later commits keep, every later commit finds, and the run ends
with. -/
theorem pairwise_commits {Q : σ × α → σ → Prop}
    (hnew : ∀ s a s', step s a = .ok s' → Q (s, a) s')
    (hkeep : ∀ c s a s', Q c s → step s a = .ok s' → Q c s') (s : σ) (inputs : List α) :
    (commits step s inputs).Pairwise (fun c c' => Q c c'.1) ∧
      ∀ c ∈ commits step s inputs, Q c (run step s inputs) := by
  refine history (fun past s => past.Pairwise (fun c c' => Q c c'.1) ∧ ∀ c ∈ past, Q c s) ?_
    ⟨.nil, by simp⟩ inputs
  rintro past s a s' ⟨hpairs, hall⟩ hs
  refine ⟨List.pairwise_append.mpr ⟨hpairs, List.pairwise_singleton _ _, ?_⟩, ?_⟩
  · intro c hc c' hc'
    rw [List.mem_singleton.mp hc']
    exact hall c hc
  · intro c hc
    rcases List.mem_append.mp hc with hc | hc
    · exact hkeep c s a s' (hall c hc) hs
    · rw [List.mem_singleton.mp hc]
      exact hnew s a s' hs

/-- Two commits that no order allows to be distinct are one. -/
theorem eq_of_pairwise {β : Type} {R : β → β → Prop} {l : List β} (h : l.Pairwise R) {a b : β}
    (ha : a ∈ l) (hb : b ∈ l) (hab : ¬ R a b) (hba : ¬ R b a) : a = b := by
  induction l with
  | nil => cases ha
  | cons c rest ih =>
      obtain ⟨hc, hrest⟩ := List.pairwise_cons.mp h
      rcases List.mem_cons.mp ha with ha' | ha'
      · rcases List.mem_cons.mp hb with hb' | hb'
        · rw [ha', hb']
        · exact absurd (ha' ▸ hc b hb') hab
      · rcases List.mem_cons.mp hb with hb' | hb'
        · exact absurd (hb' ▸ hc a ha') hba
        · exact ih hrest ha' hb'

/-! ### What was seen at some moment of a run -/

/-- Some input of the run, refused ones included, came in a state such that `Q` held of the two. -/
def Once (step : σ → α → Except ε σ) (Q : σ → α → Prop) (s : σ) (inputs : List α) : Prop :=
  ∃ before a, before ++ [a] <+: inputs ∧ Q (run step s before) a

/-- What was seen along the run, the latest first: each at one of its inputs, the earlier ones
before it. -/
def Chronicle {ω : Type} (step : σ → α → Except ε σ) (sees : ω → σ → α → Prop) (s : σ) :
    List ω → List α → Prop
  | [], _ => True
  | x :: seen, inputs => ∃ before a, before ++ [a] <+: inputs ∧ sees x (run step s before) a ∧
      Chronicle step sees s seen before

section Chronicle

variable {ω : Type} {Q Q' : σ → α → Prop} {sees : ω → σ → α → Prop} {s : σ}
  {inputs inputs' : List α} {seen : List ω}

theorem Once.later (h : Once step Q s inputs) (hlonger : inputs <+: inputs') :
    Once step Q s inputs' := by
  obtain ⟨before, a, hbefore, hQ⟩ := h
  exact ⟨before, a, hbefore.trans hlonger, hQ⟩

theorem Once.mono (h : Once step Q s inputs) (himp : ∀ t a, Q t a → Q' t a) :
    Once step Q' s inputs := by
  obtain ⟨before, a, hbefore, hQ⟩ := h
  exact ⟨before, a, hbefore, himp _ _ hQ⟩

theorem Chronicle.later (h : Chronicle step sees s seen inputs) (hlonger : inputs <+: inputs') :
    Chronicle step sees s seen inputs' := by
  cases seen with
  | nil => trivial
  | cons x seen =>
      obtain ⟨before, a, hbefore, hrest⟩ := h
      exact ⟨before, a, hbefore.trans hlonger, hrest⟩

/-- What the next input shows is the latest. -/
theorem Chronicle.snoc {x : ω} {a : α} (h : Chronicle step sees s seen inputs)
    (hx : sees x (run step s inputs) a) : Chronicle step sees s (x :: seen) (inputs ++ [a]) :=
  ⟨inputs, a, List.prefix_rfl, hx, h⟩

/-- What was seen before something was seen before that moment. -/
theorem Chronicle.drop {after : List ω} (h : Chronicle step sees s (after ++ seen) inputs) :
    Chronicle step sees s seen inputs := by
  induction after generalizing inputs with
  | nil => exact h
  | cons x after ih =>
      obtain ⟨before, a, hbefore, _, hrest⟩ := h
      exact (ih hrest).later ((List.prefix_append before [a]).trans hbefore)

theorem Chronicle.once {x : ω} (h : Chronicle step sees s seen inputs) (hx : x ∈ seen) :
    Once step (sees x) s inputs := by
  obtain ⟨after, earlier, rfl⟩ := List.append_of_mem hx
  obtain ⟨before, a, hbefore, hsees, _⟩ := h.drop
  exact ⟨before, a, hbefore, hsees⟩

end Chronicle

/-- What the accepted inputs of a run show, the latest first. -/
def observations {ω : Type} (step : σ → α → Except ε σ) (see : σ → α → Option ω) (s : σ)
    (inputs : List α) : List ω :=
  ((commits step s inputs).filterMap fun c => see c.1 c.2).reverse

section Observations

variable {ω : Type} {see : σ → α → Option ω}

theorem observations_concat_ok {s s' : σ} {inputs : List α} {a : α}
    (h : step (run step s inputs) a = .ok s') :
    observations step see s (inputs ++ [a]) =
      (see (run step s inputs) a).toList ++ observations step see s inputs := by
  unfold observations
  rw [commits_append, commits_single_ok h, List.filterMap_append, List.reverse_append]
  cases hsee : see (run step s inputs) a <;> simp [hsee]

theorem observations_concat_error {s : σ} {inputs : List α} {a : α} {e : ε}
    (h : step (run step s inputs) a = .error e) :
    observations step see s (inputs ++ [a]) = observations step see s inputs := by
  unfold observations
  rw [commits_append, commits_single_error h, List.append_nil]

/-- What is observed along a run is a chronicle of it. -/
theorem chronicle_observations (see : σ → α → Option ω) (s : σ) (inputs : List α) :
    Chronicle step (fun x t a => see t a = some x) s (observations step see s inputs) inputs := by
  induction inputs using List.reverseRecOn with
  | nil => trivial
  | append_singleton inputs a ih =>
      cases h : step (run step s inputs) a with
      | error e =>
          rw [observations_concat_error h]
          exact ih.later (List.prefix_append inputs [a])
      | ok s' =>
          rw [observations_concat_ok h]
          cases hsee : see (run step s inputs) a with
          | none => exact ih.later (List.prefix_append inputs [a])
          | some x => exact ih.snoc hsee

end Observations

/-- An invariant of the state that may speak of the run that led to it. -/
theorem invariant_along {Inv : List α → σ → Prop} {s : σ} (h0 : Inv [] s)
    (hskip : ∀ inputs a e, Inv inputs (run step s inputs) →
      step (run step s inputs) a = .error e → Inv (inputs ++ [a]) (run step s inputs))
    (hstep : ∀ inputs a s', Inv inputs (run step s inputs) →
      step (run step s inputs) a = .ok s' → Inv (inputs ++ [a]) s') (inputs : List α) :
    Inv inputs (run step s inputs) := by
  induction inputs using List.reverseRecOn with
  | nil => exact h0
  | append_singleton inputs a ih =>
      rw [run_append, run_cons, run_nil]
      cases h : step (run step s inputs) a with
      | ok s' =>
          rw [next_ok h]
          exact hstep inputs a s' ih h
      | error e =>
          rw [next_error h]
          exact hskip inputs a e ih h

/-! ### Runs of one machine that are runs of another -/

/-- Where each accepted step of a machine is a step of another, or leaves it where it is, a run of
the one is a run of the other, and what the other accepts in it the one has accepted. -/
theorem simulated {τ β δ : Type} {step' : τ → β → Except δ τ} {R : σ → τ → Prop}
    (project : σ → α → Option β)
    (hstep : ∀ s t a s', R s t → step s a = .ok s' → (project s a = none ∧ R s' t) ∨
      ∃ b t', project s a = some b ∧ step' t b = .ok t' ∧ R s' t') {s : σ} {t : τ} (h0 : R s t)
    (inputs : List α) :
    ∃ inputs', R (run step s inputs) (run step' t inputs') ∧
      ∀ c' ∈ commits step' t inputs', ∃ c ∈ commits step s inputs,
        project c.1 c.2 = some c'.2 ∧ R c.1 c'.1 := by
  induction inputs generalizing s t with
  | nil => exact ⟨[], h0, by simp [commits]⟩
  | cons a rest ih =>
      cases h : step s a with
      | error e =>
          obtain ⟨inputs', hR, hcommits⟩ := ih h0
          refine ⟨inputs', by rw [run_cons, next_error h]; exact hR, ?_⟩
          simpa only [commits, h] using hcommits
      | ok s' =>
          have hcons : commits step s (a :: rest) = (s, a) :: commits step s' rest := by
            simp only [commits, h]
          rw [run_cons, next_ok h, hcons]
          rcases hstep s t a s' h0 h with ⟨_, hR⟩ | ⟨b, t', hproject, hb, hR⟩
          · obtain ⟨inputs', hrun, hcommits⟩ := ih hR
            refine ⟨inputs', hrun, fun c' hc' => ?_⟩
            obtain ⟨c, hc, hrest⟩ := hcommits c' hc'
            exact ⟨c, List.mem_cons_of_mem _ hc, hrest⟩
          · obtain ⟨inputs', hrun, hcommits⟩ := ih hR
            refine ⟨b :: inputs', by rw [run_cons, next_ok hb]; exact hrun, fun c' hc' => ?_⟩
            simp only [commits, hb, List.mem_cons] at hc'
            rcases hc' with rfl | hc'
            · exact ⟨(s, a), List.mem_cons_self, hproject, h0⟩
            · obtain ⟨c, hc, hrest⟩ := hcommits c' hc'
              exact ⟨c, List.mem_cons_of_mem _ hc, hrest⟩

/-- Inputs that only change what no other input of the run depends on can be left out of it. -/
theorem run_filter {ρ : Type} {erase : σ → ρ} {keep : α → Bool} {inputs : List α}
    (hdrop : ∀ s a s', keep a = false → step s a = .ok s' → erase s' = erase s)
    (hkeep : ∀ s t a s', a ∈ inputs → keep a = true → erase s = erase t → step s a = .ok s' →
      ∃ t', step t a = .ok t' ∧ erase s' = erase t') {s t : σ} (h0 : erase s = erase t) :
    erase (run step s inputs) = erase (run step t (inputs.filter keep)) := by
  induction inputs generalizing s t with
  | nil => exact h0
  | cons a rest ih =>
      replace ih := fun {s t : σ} => ih (s := s) (t := t)
        fun s t a s' ha => hkeep s t a s' (List.mem_cons_of_mem _ ha)
      cases hk : keep a with
      | false =>
          rw [List.filter_cons_of_neg (by simp [hk])]
          cases h : step s a with
          | error e =>
              rw [run_cons, next_error h]
              exact ih h0
          | ok s' =>
              rw [run_cons, next_ok h]
              exact ih ((hdrop s a s' hk h).trans h0)
      | true =>
          rw [List.filter_cons_of_pos hk, run_cons, run_cons]
          cases h : step s a with
          | ok s' =>
              obtain ⟨t', ht, hsame⟩ := hkeep s t a s' List.mem_cons_self hk h0 h
              rw [next_ok h, next_ok ht]
              exact ih hsame
          | error e =>
              rw [next_error h]
              cases ht : step t a with
              | error e' =>
                  rw [next_error ht]
                  exact ih h0
              | ok t' =>
                  -- what the one accepts the other does
                  obtain ⟨s', hs, _⟩ := hkeep t s a t' List.mem_cons_self hk h0.symm ht
                  rw [h] at hs
                  cases hs

/-! ### Checking a given run -/

/-- Whether every input the run accepts meets `G`. -/
def checks (step : σ → α → Except ε σ) (G : σ → α → Bool) : σ → List α → Bool
  | _, [] => true
  | s, a :: rest =>
      match step s a with
      | .ok s' => G s a && checks step G s' rest
      | .error _ => checks step G s rest

theorem meets_of_checks {G : σ → α → Bool} {s : σ} {inputs : List α}
    (h : checks step G s inputs = true) : Meets step (fun s a => G s a = true) s inputs := by
  induction inputs generalizing s with
  | nil => exact meets_nil s
  | cons a rest ih =>
      intro c hc
      cases hs : step s a with
      | error e =>
          simp only [checks, hs] at h
          simp only [commits, hs] at hc
          exact ih h c hc
      | ok s' =>
          simp only [checks, hs, Bool.and_eq_true] at h
          simp only [commits, hs, List.mem_cons] at hc
          rcases hc with rfl | hc
          · exact h.1
          · exact ih h.2 c hc

end Machine
