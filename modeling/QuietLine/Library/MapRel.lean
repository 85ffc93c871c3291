/-
Maps that hold the same keys, entry related to entry.

A program that updates the entries of a map, but neither adds nor drops one, is
described by what it does to one entry.  `Pointwise P m m'` says that; it composes
as its relation does.
-/
import Mathlib.Data.Option.Basic
import QuietLine.Library.MapSum

namespace MapRel

open Std

variable {κ β : Type} {cmp : κ → κ → Ordering} [TransCmp cmp] {P Q R : κ → β → β → Prop}
  {m m' m'' : ExtTreeMap κ β cmp}

/-- The maps have the same keys, and `P` relates what they hold under each. -/
def Pointwise (P : κ → β → β → Prop) (m m' : ExtTreeMap κ β cmp) : Prop :=
  ∀ k, Option.Rel (P k) m[k]? m'[k]?

namespace Pointwise

theorem get {k : κ} {v : β} (h : Pointwise P m m') (hk : m[k]? = some v) :
    ∃ v', m'[k]? = some v' ∧ P k v v' := by
  have hrel := h k
  rw [hk] at hrel
  cases hv' : m'[k]? with
  | none => rw [hv'] at hrel; cases hrel
  | some v' =>
      rw [hv'] at hrel
      cases hrel with
      | some hp => exact ⟨v', rfl, hp⟩

theorem get' {k : κ} {v' : β} (h : Pointwise P m m') (hk : m'[k]? = some v') :
    ∃ v, m[k]? = some v ∧ P k v v' := by
  have hrel := h k
  rw [hk] at hrel
  cases hv : m[k]? with
  | none => rw [hv] at hrel; cases hrel
  | some v =>
      rw [hv] at hrel
      cases hrel with
      | some hp => exact ⟨v, rfl, hp⟩

theorem get_none {k : κ} (h : Pointwise P m m') (hk : m[k]? = none) : m'[k]? = none := by
  cases hv : m'[k]? with
  | none => rfl
  | some v' =>
      obtain ⟨v, hv, _⟩ := h.get' hv
      rw [hv] at hk
      cases hk

theorem refl (hP : ∀ k v, m[k]? = some v → P k v v) : Pointwise P m m := by
  intro k
  cases hv : m[k]? with
  | none => exact Option.Rel.none
  | some v => exact Option.Rel.some (hP k v hv)

/-- Composition: what two updates do to an entry, one after the other. -/
theorem comp (h : Pointwise P m m') (h' : Pointwise Q m' m'')
    (hPQ : ∀ k v v' v'', P k v v' → Q k v' v'' → R k v v'') : Pointwise R m m'' := by
  intro k
  cases hv : m[k]? with
  | none => rw [h'.get_none (h.get_none hv)]; exact Option.Rel.none
  | some v =>
      obtain ⟨v', hv', hp⟩ := h.get hv
      obtain ⟨v'', hv'', hq⟩ := h'.get hv'
      rw [hv'']
      exact Option.Rel.some (hPQ k v v' v'' hp hq)

theorem mono (h : Pointwise P m m') (hPQ : ∀ k v v', P k v v' → Q k v v') : Pointwise Q m m' := by
  intro k
  cases hv : m[k]? with
  | none => rw [h.get_none hv]; exact Option.Rel.none
  | some v =>
      obtain ⟨v', hv', hp⟩ := h.get hv
      rw [hv']
      exact Option.Rel.some (hPQ k v v' hp)

/-- Updating one entry. -/
theorem insert [LawfulEqCmp cmp] [DecidableEq κ] {k : κ} {v v' : β} (hk : m[k]? = some v) (hP : P k v v')
    (hrest : ∀ k' w, m[k']? = some w → k' ≠ k → P k' w w) : Pointwise P m (m.insert k v') := by
  intro k'
  rw [MapSum.getElem?_insert_eq]
  by_cases h : k = k'
  · subst h
    rw [if_pos rfl, hk]
    exact Option.Rel.some hP
  · rw [if_neg h]
    cases hw : m[k']? with
    | none => exact Option.Rel.none
    | some w => exact Option.Rel.some (hrest k' w hw fun h' => h h'.symm)

/-- Where related entries count the same, the totals agree. -/
theorem total_eq [LawfulEqCmp cmp] [DecidableEq κ] {f : κ → β → Nat} (h : Pointwise P m m')
    (hP : ∀ k v v', m[k]? = some v → P k v v' → f k v' = f k v) :
    MapSum.total m' f = MapSum.total m f := by
  have hentry : ∀ k, (m'[k]?).elim 0 (f k) = (m[k]?).elim 0 (f k) := by
    intro k
    cases hv : m[k]? with
    | none => rw [h.get_none hv]
    | some v =>
        obtain ⟨v', hv', hp⟩ := h.get hv
        rw [hv', Option.elim_some, Option.elim_some, hP k v v' hv hp]
  have hkeys : MapSum.keySet m' ⊆ MapSum.keySet m := by
    intro k hk
    obtain ⟨v', hv'⟩ := MapSum.mem_keySet.mp hk
    obtain ⟨v, hv, _⟩ := h.get' hv'
    exact MapSum.mem_keySet.mpr ⟨v, hv⟩
  rw [MapSum.total_eq_sum hkeys]
  exact Finset.sum_congr rfl fun k _ => hentry k

end Pointwise

end MapRel
