/-
Sums over the entries of a map.

A ledger keyed by name is a finite map, and what is conserved about it is a sum
over its entries.  `total m f` is that sum.  One insertion changes exactly one
summand, which `total_insert` says without subtraction, so that arithmetic
closes whatever it leaves.  The rest is how totals compare, how a total that is
grouped by a second map adds up again (`total_group`), and when the weights of one
list are covered by those of another (`sum_le_of_matching`).
-/
import Mathlib.Algebra.GroupWithZero.Nat
import Mathlib.Algebra.BigOperators.Group.Finset.Basic
import Mathlib.Algebra.Order.BigOperators.Group.Finset
import Mathlib.Algebra.BigOperators.Group.Finset.Piecewise
import Std.Data.ExtTreeMap

namespace MapSum

open Std

variable {κ β γ : Type} {cmp : κ → κ → Ordering} [TransCmp cmp] [LawfulEqCmp cmp] [DecidableEq κ]

/-- The keys of a map. -/
def keySet (m : ExtTreeMap κ β cmp) : Finset κ := m.keys.toFinset

/-- The sum of `f` over the entries of a map. -/
def total (m : ExtTreeMap κ β cmp) (f : κ → β → Nat) : Nat :=
  ∑ k ∈ keySet m, (m[k]?).elim 0 (f k)

variable {m : ExtTreeMap κ β cmp} {f g : κ → β → Nat}

theorem mem_keySet {k : κ} : k ∈ keySet m ↔ ∃ v, m[k]? = some v := by
  rw [keySet, List.mem_toFinset, ExtTreeMap.mem_keys, ExtTreeMap.mem_iff_isSome_getElem?,
    Option.isSome_iff_exists]

theorem getElem?_insert_eq (m : ExtTreeMap κ β cmp) (k k' : κ) (v : β) :
    (m.insert k v)[k']? = if k = k' then some v else m[k']? := by
  simp [ExtTreeMap.getElem?_insert]

theorem getElem?_insert_ne {k k' : κ} {v : β} (h : k ≠ k') : (m.insert k v)[k']? = m[k']? := by
  rw [getElem?_insert_eq, if_neg h]

/-- Keys that are not in the map add nothing. -/
theorem total_eq_sum {S : Finset κ} (hS : keySet m ⊆ S) :
    total m f = ∑ k ∈ S, (m[k]?).elim 0 (f k) := by
  refine Finset.sum_subset hS fun k _ hk => ?_
  cases h : m[k]? with
  | none => rfl
  | some v => exact absurd (mem_keySet.mpr ⟨v, h⟩) hk

@[simp] theorem total_empty : total (∅ : ExtTreeMap κ β cmp) f = 0 := by
  rw [total]
  refine Finset.sum_eq_zero fun k hk => ?_
  obtain ⟨v, hv⟩ := mem_keySet.mp hk
  simp at hv

/-- An insertion trades the summand it replaces for the one it writes. -/
theorem total_insert (m : ExtTreeMap κ β cmp) (k : κ) (v : β) (f : κ → β → Nat) :
    total (m.insert k v) f + (m[k]?).elim 0 (f k) = total m f + f k v := by
  set S := insert k (keySet m) with hS
  have hk : k ∈ S := Finset.mem_insert_self _ _
  have hold : keySet m ⊆ S := Finset.subset_insert _ _
  have hnew : keySet (m.insert k v) ⊆ S := by
    intro k' hk'
    obtain ⟨w, hw⟩ := mem_keySet.mp hk'
    rw [getElem?_insert_eq] at hw
    by_cases h : k = k'
    · rw [← h]; exact hk
    · rw [if_neg h] at hw
      exact hold (mem_keySet.mpr ⟨w, hw⟩)
  rw [total_eq_sum hnew, total_eq_sum hold, ← Finset.add_sum_erase S _ hk,
    ← Finset.add_sum_erase S (fun k => (m[k]?).elim 0 (f k)) hk]
  have hrest : ∑ k' ∈ S.erase k, ((m.insert k v)[k']?).elim 0 (f k')
      = ∑ k' ∈ S.erase k, (m[k']?).elim 0 (f k') := by
    refine Finset.sum_congr rfl fun k' hk' => ?_
    rw [getElem?_insert_ne fun h => (Finset.mem_erase.mp hk').1 h.symm]
  rw [hrest]
  simp only [ExtTreeMap.getElem?_insert_self, Option.elim_some]
  omega

theorem total_insert_some {k : κ} {v w : β} (h : m[k]? = some w) :
    total (m.insert k v) f + f k w = total m f + f k v := by
  have := total_insert m k v f
  rwa [h] at this

theorem total_insert_none {k : κ} {v : β} (h : m[k]? = none) :
    total (m.insert k v) f = total m f + f k v := by
  have := total_insert m k v f
  rwa [h] at this

theorem le_total {k : κ} {v : β} (h : m[k]? = some v) : f k v ≤ total m f := by
  have := Finset.single_le_sum (f := fun k => (m[k]?).elim 0 (f k))
    (fun _ _ => Nat.zero_le _) (mem_keySet.mpr ⟨v, h⟩)
  simpa [total, h] using this

theorem total_congr (h : ∀ k v, m[k]? = some v → f k v = g k v) : total m f = total m g := by
  refine Finset.sum_congr rfl fun k hk => ?_
  obtain ⟨v, hv⟩ := mem_keySet.mp hk
  simp [hv, h k v hv]

theorem total_mono (h : ∀ k v, m[k]? = some v → f k v ≤ g k v) : total m f ≤ total m g := by
  refine Finset.sum_le_sum fun k hk => ?_
  obtain ⟨v, hv⟩ := mem_keySet.mp hk
  simp [hv, h k v hv]

theorem total_add : total m (fun k v => f k v + g k v) = total m f + total m g := by
  rw [total, total, total, ← Finset.sum_add_distrib]
  refine Finset.sum_congr rfl fun k hk => ?_
  obtain ⟨v, hv⟩ := mem_keySet.mp hk
  simp [hv]

theorem total_eq_zero (h : ∀ k v, m[k]? = some v → f k v = 0) : total m f = 0 := by
  refine Finset.sum_eq_zero fun k hk => ?_
  obtain ⟨v, hv⟩ := mem_keySet.mp hk
  simp [hv, h k v hv]

/-- A total with one entry that counts is that entry. -/
theorem total_eq_single {k : κ} {v : β} (hk : m[k]? = some v)
    (h : ∀ k' v', m[k']? = some v' → k' ≠ k → f k' v' = 0) : total m f = f k v := by
  rw [total, Finset.sum_eq_single k]
  · simp [hk]
  · intro k' hk' hne
    obtain ⟨v', hv'⟩ := mem_keySet.mp hk'
    simp [hv', h k' v' hv' hne]
  · intro hnot
    exact absurd (mem_keySet.mpr ⟨v, hk⟩) hnot

/-! ### Grouping a total by the keys of another map -/

/-- One amount filed under a key the map has. -/
theorem total_filed {c : κ} {v : β} (hc : m[c]? = some v) (x : Nat) :
    total m (fun k _ => if c = k then x else 0) = x := by
  rw [total_eq_single hc]
  · simp
  · intro k' _ _ hne
    rw [if_neg fun h => hne h.symm]

/-- Two totals, one inside the other, in either order. -/
theorem total_comm (m : ExtTreeMap κ β cmp) (n : ExtTreeMap κ γ cmp) (g : κ → β → κ → γ → Nat) :
    total m (fun c v => total n (g c v)) = total n (fun k w => total m (fun c v => g c v k w)) := by
  have hcol : ∀ c ∈ keySet m, (m[c]?).elim 0 (fun v => total n (g c v)) =
      ∑ k ∈ keySet n, (m[c]?).elim 0 (fun v => (n[k]?).elim 0 (g c v k)) := by
    intro c hc
    obtain ⟨v, hv⟩ := mem_keySet.mp hc
    simp [hv, total]
  have hrow : ∀ k ∈ keySet n, (n[k]?).elim 0 (fun w => total m (fun c v => g c v k w)) =
      ∑ c ∈ keySet m, (m[c]?).elim 0 (fun v => (n[k]?).elim 0 (g c v k)) := by
    intro k hk
    obtain ⟨w, hw⟩ := mem_keySet.mp hk
    simp [hw, total]
  calc total m (fun c v => total n (g c v))
      = ∑ c ∈ keySet m, ∑ k ∈ keySet n, (m[c]?).elim 0 (fun v => (n[k]?).elim 0 (g c v k)) :=
        Finset.sum_congr rfl hcol
    _ = ∑ k ∈ keySet n, ∑ c ∈ keySet m, (m[c]?).elim 0 (fun v => (n[k]?).elim 0 (g c v k)) :=
        Finset.sum_comm
    _ = total n (fun k w => total m (fun c v => g c v k w)) :=
        (Finset.sum_congr rfl hrow).symm

/-- Entries filed under keys of `m` add up to the total, group by group. -/
theorem total_group {n : ExtTreeMap κ γ cmp} {key : γ → κ} {h : κ → γ → Nat}
    (hfiled : ∀ k w, n[k]? = some w → h k w = 0 ∨ ∃ v, m[key w]? = some v) :
    total m (fun c _ => total n (fun k w => if key w = c then h k w else 0)) = total n h := by
  rw [total_comm]
  refine total_congr fun k w hw => ?_
  rcases hfiled k w hw with h0 | ⟨v, hv⟩
  · rw [h0]
    exact total_eq_zero fun c _ _ => by simp
  · exact total_filed hv _

/-- The same for a list of amounts, each filed under a key of the map. -/
theorem total_group_list (l : List γ) (key : γ → κ) (amount : γ → Nat)
    (hfiled : ∀ t ∈ l, ∃ v, m[key t]? = some v) :
    total m (fun c _ => (l.map fun t => if key t = c then amount t else 0).sum) =
      (l.map amount).sum := by
  induction l with
  | nil => exact total_eq_zero fun c _ _ => by simp
  | cons t rest ih =>
      obtain ⟨v, hv⟩ := hfiled t (by simp)
      have hrest := ih fun t' ht' => hfiled t' (by simp [ht'])
      simp only [List.map_cons, List.sum_cons]
      rw [total_add, total_filed hv, hrest]

/-- Weights that are matched, each with an entry of its own that weighs as much, sum to no more
than the entries do. -/
theorem sum_le_of_matching {α β : Type} [DecidableEq β] {R : α → β → Prop} {a : α → Nat}
    {b : β → Nat} {l : List α} {m : List β}
    (hmatch : ∀ x ∈ l, a x ≠ 0 → ∃ y ∈ m, R x y ∧ a x ≤ b y)
    (hown : l.Pairwise fun x x' => ∀ y, R x y → ¬ R x' y) :
    (l.map a).sum ≤ (m.map b).sum := by
  induction l generalizing m with
  | nil => simp
  | cons x rest ih =>
      obtain ⟨hx, hrest⟩ := List.pairwise_cons.mp hown
      rw [List.map_cons, List.sum_cons]
      by_cases hzero : a x = 0
      · rw [hzero, Nat.zero_add]
        exact ih (fun x' hx' => hmatch x' (List.mem_cons_of_mem _ hx')) hrest
      · obtain ⟨y, hy, hR, hle⟩ := hmatch x List.mem_cons_self hzero
        -- the others are matched with what is left
        have hleft : (rest.map a).sum ≤ ((m.erase y).map b).sum := by
          refine ih (fun x' hx' hne => ?_) hrest
          obtain ⟨y', hy', hR', hle'⟩ := hmatch x' (List.mem_cons_of_mem _ hx') hne
          refine ⟨y', ?_, hR', hle'⟩
          rw [List.mem_erase_of_ne]
          · exact hy'
          · rintro rfl
            exact hx x' hx' y' hR hR'
        have hsum : (m.map b).sum = b y + ((m.erase y).map b).sum := by
          rw [((List.perm_cons_erase hy).map b).sum_eq, List.map_cons, List.sum_cons]
        omega

end MapSum
