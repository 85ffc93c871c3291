/-
Filling a demand from a list of offers, in turn.

Each offer has a limit and a price, and a filling takes from each as much as it gives
until the demand is met.  It takes the whole demand or every limit, whichever is less
(`amount_fill`), and touches an offer only when those before it are used up
(`share_in_turn`).  When the offers come by price no other way to take as much is cheaper
(`cost_fill_le`): up to some price every offer is used up, above it none is touched,
and moving an amount across that price can only cost more.
-/
import Mathlib.Algebra.BigOperators.Group.List.Basic
import Mathlib.Algebra.Order.Group.Nat
import Mathlib.Data.List.Pairwise
import Mathlib.Order.Lattice
import Mathlib.Tactic.Ring

/-- Of two members of a list one stands before the other. -/
theorem List.Pairwise.before_or_after {α : Type} {R : α → α → Prop} {l : List α}
    (h : l.Pairwise R) {a b : α} (ha : a ∈ l) (hb : b ∈ l) (hne : a ≠ b) : R a b ∨ R b a := by
  have : Std.Symm fun a b => R a b ∨ R b a := ⟨fun _ _ h => h.symm⟩
  have heither : l.Pairwise fun a b => R a b ∨ R b a := h.imp fun hab => Or.inl hab
  exact heither.forall ha hb hne

namespace Greedy

variable {ι : Type} (limit price : ι → Nat)

/-- What is taken from each offer. -/
def fill : List ι → Nat → List (ι × Nat)
  | [], _ => []
  | i :: rest, wanted => (i, min (limit i) wanted) :: fill rest (wanted - min (limit i) wanted)

/-- The amount of a filling. -/
def amount (taken : List (ι × Nat)) : Nat := (taken.map Prod.snd).sum

/-- What it costs. -/
def cost (taken : List (ι × Nat)) : Nat := (taken.map fun t => t.2 * price t.1).sum

@[simp] theorem fill_nil (wanted : Nat) : fill limit [] wanted = [] := rfl

@[simp] theorem fill_cons (i : ι) (rest : List ι) (wanted : Nat) :
    fill limit (i :: rest) wanted =
      (i, min (limit i) wanted) :: fill limit rest (wanted - min (limit i) wanted) := rfl

@[simp] theorem amount_nil : amount ([] : List (ι × Nat)) = 0 := rfl

@[simp] theorem amount_cons (t : ι × Nat) (rest : List (ι × Nat)) :
    amount (t :: rest) = t.2 + amount rest := by
  simp [amount]

@[simp] theorem cost_nil : cost price ([] : List (ι × Nat)) = 0 := rfl

@[simp] theorem cost_cons (t : ι × Nat) (rest : List (ι × Nat)) :
    cost price (t :: rest) = t.2 * price t.1 + cost price rest := by
  simp [cost]

theorem map_fst_fill (items : List ι) (wanted : Nat) :
    (fill limit items wanted).map Prod.fst = items := by
  induction items generalizing wanted with
  | nil => simp
  | cons i rest ih => simp [ih]

/-- A filling takes the demand, or everything there is. -/
theorem amount_fill (items : List ι) (wanted : Nat) :
    amount (fill limit items wanted) = min wanted (items.map limit).sum := by
  induction items generalizing wanted with
  | nil => simp
  | cons i rest ih =>
      simp only [fill_cons, amount_cons, ih, List.map_cons, List.sum_cons]
      omega

variable {limit price}

/-- Nothing is taken for no demand. -/
theorem snd_eq_zero {items : List ι} {t : ι × Nat} (ht : t ∈ fill limit items 0) : t.2 = 0 := by
  induction items with
  | nil => simp at ht
  | cons i rest ih =>
      simp only [fill_cons, Nat.min_zero, Nat.sub_zero] at ht
      rcases List.mem_cons.mp ht with rfl | ht
      · rfl
      · exact ih ht

theorem amount_eq_zero {taken : List (ι × Nat)} (h : ∀ t ∈ taken, t.2 = 0) :
    amount taken = 0 := by
  induction taken with
  | nil => simp
  | cons t rest ih =>
      simp [h t List.mem_cons_self, ih fun u hu => h u (List.mem_cons_of_mem _ hu)]

theorem cost_eq_zero {taken : List (ι × Nat)} (h : ∀ t ∈ taken, t.2 = 0) :
    cost price taken = 0 := by
  induction taken with
  | nil => simp
  | cons t rest ih =>
      simp [h t List.mem_cons_self, ih fun u hu => h u (List.mem_cons_of_mem _ hu)]

theorem fill_congr {limit' : ι → Nat} {items : List ι} (h : ∀ i ∈ items, limit i = limit' i)
    (wanted : Nat) : fill limit items wanted = fill limit' items wanted := by
  induction items generalizing wanted with
  | nil => simp
  | cons i rest ih =>
      have hrest := ih fun j hj => h j (List.mem_cons_of_mem _ hj)
      simp [h i List.mem_cons_self, hrest]

/-! ### What one offer gives -/

section Share

variable [DecidableEq ι]

/-- What is taken from `i`. -/
def share (taken : List (ι × Nat)) (i : ι) : Nat :=
  (taken.map fun t => if t.1 = i then t.2 else 0).sum

@[simp] theorem share_nil (i : ι) : share ([] : List (ι × Nat)) i = 0 := rfl

@[simp] theorem share_cons (t : ι × Nat) (rest : List (ι × Nat)) (i : ι) :
    share (t :: rest) i = (if t.1 = i then t.2 else 0) + share rest i := by
  simp [share]

theorem share_eq_zero {taken : List (ι × Nat)} {i : ι} (h : i ∉ taken.map Prod.fst) :
    share taken i = 0 := by
  induction taken with
  | nil => simp
  | cons t rest ih =>
      rw [List.map_cons, List.mem_cons, not_or] at h
      simp [ih h.2, Ne.symm h.1]

theorem share_fill_of_not_mem {items : List ι} {wanted : Nat} {i : ι} (h : i ∉ items) :
    share (fill limit items wanted) i = 0 :=
  share_eq_zero (by rwa [map_fst_fill])

theorem share_fill_zero {items : List ι} {i : ι} : share (fill limit items 0) i = 0 := by
  induction items with
  | nil => simp
  | cons j rest ih => simp [ih]

theorem share_fill_le {items : List ι} (hnodup : items.Nodup) (wanted : Nat) (i : ι) :
    share (fill limit items wanted) i ≤ limit i := by
  induction items generalizing wanted with
  | nil => simp
  | cons j rest ih =>
      obtain ⟨hnew, hrest⟩ := List.nodup_cons.mp hnodup
      rw [fill_cons, share_cons]
      by_cases hji : j = i
      · rw [if_pos hji, share_fill_of_not_mem (hji ▸ hnew), hji]
        omega
      · rw [if_neg hji, Nat.zero_add]
        exact ih hrest _

/-- **Offers are used up in turn**: one is touched only where those before it gave all. -/
theorem share_in_turn {items : List ι} (hnodup : items.Nodup) (wanted : Nat) :
    items.Pairwise fun i j => 0 < share (fill limit items wanted) j →
      share (fill limit items wanted) i = limit i := by
  induction items generalizing wanted with
  | nil => exact List.Pairwise.nil
  | cons i rest ih =>
      obtain ⟨hnew, hrest⟩ := List.nodup_cons.mp hnodup
      have htail : ∀ j ∈ rest, share (fill limit (i :: rest) wanted) j =
          share (fill limit rest (wanted - min (limit i) wanted)) j := by
        intro j hj
        have hne : i ≠ j := fun heq => hnew (heq ▸ hj)
        simp [hne]
      refine List.pairwise_cons.mpr ⟨fun j hj htouched => ?_, ?_⟩
      · rw [htail j hj] at htouched
        have hleft : wanted - min (limit i) wanted ≠ 0 := by
          intro hzero
          rw [hzero, share_fill_zero] at htouched
          exact absurd htouched (Nat.lt_irrefl 0)
        rw [fill_cons, share_cons, if_pos rfl, share_fill_of_not_mem hnew]
        omega
      · refine (ih hrest (wanted - min (limit i) wanted)).imp_of_mem fun {j k} hj hk hturn => ?_
        rw [htail j hj, htail k hk]
        exact hturn

end Share

/-! ### The price that separates -/

/-- Offers below the price are used up, offers above it are not touched. -/
def Separates (limit price : ι → Nat) (p : Nat) (taken : List (ι × Nat)) : Prop :=
  ∀ t ∈ taken, (price t.1 < p → t.2 = limit t.1) ∧ (p < price t.1 → t.2 = 0)

theorem exists_separates {items : List ι} (hsorted : items.Pairwise fun i j => price i ≤ price j)
    (wanted : Nat) : ∃ p, Separates limit price p (fill limit items wanted) := by
  induction items generalizing wanted with
  | nil => exact ⟨0, by simp [Separates]⟩
  | cons i rest ih =>
      obtain ⟨hhead, hrest⟩ := List.pairwise_cons.mp hsorted
      have hmem : ∀ {w : Nat} {t : ι × Nat}, t ∈ fill limit rest w → price i ≤ price t.1 := by
        intro w t ht
        apply hhead
        rw [← map_fst_fill limit rest w]
        exact List.mem_map_of_mem ht
      by_cases hmet : wanted ≤ limit i
      · -- the demand is met here, and nothing is taken of what follows
        refine ⟨price i, ?_⟩
        intro t ht
        rw [fill_cons, Nat.min_eq_right hmet, Nat.sub_self] at ht
        rcases List.mem_cons.mp ht with rfl | ht
        · simp
        · exact ⟨fun hlt => absurd (hmem ht) (Nat.not_le.mpr hlt), fun _ => snd_eq_zero ht⟩
      · obtain ⟨p, hp⟩ := ih hrest (wanted - limit i)
        have hlimit : min (limit i) wanted = limit i := Nat.min_eq_left (by omega)
        refine ⟨max p (price i), ?_⟩
        intro t ht
        rw [fill_cons, hlimit] at ht
        rcases List.mem_cons.mp ht with rfl | ht
        · simp
        · have := hmem ht
          obtain ⟨hbelow, habove⟩ := hp t ht
          exact ⟨fun hlt => hbelow (by omega), fun hlt => habove (by omega)⟩

/-- Where a price separates, another way to take as much costs as much at least. -/
theorem cost_le_of_separates {p : Nat} {taken : List (ι × Nat)} {x : ι → Nat}
    (hsep : Separates limit price p taken) (hx : ∀ t ∈ taken, x t.1 ≤ limit t.1) :
    cost price taken + p * (taken.map fun t => x t.1).sum ≤
      (taken.map fun t => x t.1 * price t.1).sum + p * amount taken := by
  induction taken with
  | nil => simp
  | cons t rest ih =>
      have hrest := ih (fun u hu => hsep u (List.mem_cons_of_mem _ hu))
        fun u hu => hx u (List.mem_cons_of_mem _ hu)
      obtain ⟨hbelow, habove⟩ := hsep t List.mem_cons_self
      have hlimit := hx t List.mem_cons_self
      have hone : t.2 * price t.1 + p * x t.1 ≤ x t.1 * price t.1 + p * t.2 := by
        rcases Nat.lt_trichotomy (price t.1) p with hlt | heq | hgt
        · rw [hbelow hlt]
          obtain ⟨a, ha⟩ := Nat.exists_eq_add_of_le hlimit
          obtain ⟨d, hd⟩ := Nat.exists_eq_add_of_le hlt.le
          have hgain : x t.1 * price t.1 + (price t.1 + d) * (x t.1 + a) =
              (x t.1 + a) * price t.1 + (price t.1 + d) * x t.1 + d * a := by ring
          rw [ha, hd]
          omega
        · rw [heq, Nat.mul_comm p, Nat.mul_comm p]
          omega
        · rw [habove hgt]
          have := Nat.mul_le_mul_left (x t.1) hgt.le
          rw [Nat.mul_comm p]
          omega
      simp only [cost_cons, amount_cons, List.map_cons, List.sum_cons, Nat.mul_add]
      omega

/-- **A filling by price is cheapest** among all that take as much within the limits. -/
theorem cost_fill_le {items : List ι} (hsorted : items.Pairwise fun i j => price i ≤ price j)
    {wanted : Nat} {x : ι → Nat} (hx : ∀ i ∈ items, x i ≤ limit i)
    (hamount : (items.map x).sum = amount (fill limit items wanted)) :
    cost price (fill limit items wanted) ≤ (items.map fun i => x i * price i).sum := by
  obtain ⟨p, hp⟩ : ∃ p, Separates limit price p (fill limit items wanted) :=
    exists_separates hsorted wanted
  have hfst := map_fst_fill limit items wanted
  have hle := cost_le_of_separates hp (x := x) fun t ht =>
    hx t.1 (by rw [← hfst]; exact List.mem_map_of_mem ht)
  have hx₁ : ((fill limit items wanted).map fun t => x t.1).sum = (items.map x).sum := by
    conv_rhs => rw [← hfst, List.map_map]
    rfl
  have hx₂ : ((fill limit items wanted).map fun t => x t.1 * price t.1).sum =
      (items.map fun i => x i * price i).sum := by
    conv_rhs => rw [← hfst, List.map_map]
    rfl
  rw [hx₁, hx₂, hamount] at hle
  omega

end Greedy
