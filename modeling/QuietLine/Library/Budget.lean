/-
Paying bills from a budget, in turn, each in full or not at all.

What is paid depends on the turn: a bill that comes late may find too little left.  It does not
exactly when the budget covers all bills it could pay one by one (`pay_eq_filter`); where it does
not, some bill is left unpaid that would have been paid first (`exists_unpaid`).
-/
import Mathlib.Algebra.GroupWithZero.Nat
import Mathlib.Algebra.BigOperators.Group.List.Basic
import Mathlib.Algebra.Order.BigOperators.Group.List
import Mathlib.Algebra.Order.Group.Nat

namespace Budget

variable {ι : Type} (cost : ι → Option Nat)

/-- What is paid; an item without a cost is no bill. -/
def pay : List ι → Nat → List ι
  | [], _ => []
  | i :: rest, budget =>
      match cost i with
      | none => pay rest budget
      | some c => if c ≤ budget then i :: pay rest (budget - c) else pay rest budget

/-- The budget covers the bill, taken alone. -/
def payable (budget : Nat) (i : ι) : Bool := (cost i).any (· ≤ budget)

/-- What the bills add up to. -/
def total (items : List ι) : Nat := (items.map fun i => (cost i).getD 0).sum

@[simp] theorem pay_nil (budget : Nat) : pay cost [] budget = [] := rfl

@[simp] theorem total_nil : total cost ([] : List ι) = 0 := rfl

@[simp] theorem total_cons (i : ι) (rest : List ι) :
    total cost (i :: rest) = (cost i).getD 0 + total cost rest := by
  simp [total]

variable {cost}

theorem pay_none {i : ι} (h : cost i = none) (rest : List ι) (budget : Nat) :
    pay cost (i :: rest) budget = pay cost rest budget := by
  simp [pay, h]

theorem pay_some {i : ι} {c budget : Nat} (h : cost i = some c) (hle : c ≤ budget)
    (rest : List ι) : pay cost (i :: rest) budget = i :: pay cost rest (budget - c) := by
  simp [pay, h, hle]

theorem pay_short {i : ι} {c budget : Nat} (h : cost i = some c) (hlt : budget < c)
    (rest : List ι) : pay cost (i :: rest) budget = pay cost rest budget := by
  simp [pay, h, Nat.not_le.mpr hlt]

theorem payable_iff {budget : Nat} {i : ι} :
    payable cost budget i = true ↔ ∃ c, cost i = some c ∧ c ≤ budget := by
  unfold payable
  cases cost i <;> simp

theorem pay_congr {cost' : ι → Option Nat} {items : List ι} (h : ∀ i ∈ items, cost' i = cost i)
    (budget : Nat) : pay cost' items budget = pay cost items budget := by
  induction items generalizing budget with
  | nil => rfl
  | cons i rest ih =>
      have hrest := fun budget => ih (fun j hj => h j (List.mem_cons_of_mem _ hj)) budget
      unfold pay
      rw [h i List.mem_cons_self]
      simp only [hrest]

/-- The first item is paid or not, and the rest from what that leaves. -/
theorem pay_cons (i : ι) (rest : List ι) (budget : Nat) :
    pay cost (i :: rest) budget = pay cost [i] budget ++
      pay cost rest (budget - total cost (pay cost [i] budget)) := by
  cases hcost : cost i with
  | none => simp [pay_none hcost]
  | some c =>
      by_cases hle : c ≤ budget
      · simp [pay_some hcost hle, hcost]
      · simp [pay_short hcost (Nat.not_le.mp hle)]

theorem pay_sublist (items : List ι) (budget : Nat) :
    List.Sublist (pay cost items budget) items := by
  induction items generalizing budget with
  | nil => exact List.Sublist.refl _
  | cons i rest ih =>
      cases hcost : cost i with
      | none =>
          rw [pay_none hcost]
          exact (ih budget).cons i
      | some c =>
          by_cases hle : c ≤ budget
          · rw [pay_some hcost hle]
            exact (ih _).cons_cons i
          · rw [pay_short hcost (Nat.not_le.mp hle)]
            exact (ih budget).cons i

/-- What is paid is within the budget. -/
theorem total_pay_le (items : List ι) (budget : Nat) :
    total cost (pay cost items budget) ≤ budget := by
  induction items generalizing budget with
  | nil => simp
  | cons i rest ih =>
      cases hcost : cost i with
      | none =>
          rw [pay_none hcost]
          exact ih budget
      | some c =>
          by_cases hle : c ≤ budget
          · have hrest := ih (budget - c)
            rw [pay_some hcost hle, total_cons, hcost, Option.getD_some]
            omega
          · rw [pay_short hcost (Nat.not_le.mp hle)]
            exact ih budget

/-- What is payable from one budget out of a set that another covers is that set. -/
theorem pay_eq_filter_of {P : ι → Bool} {items : List ι} {budget : Nat}
    (hpayable : ∀ i ∈ items, P i = true → ∃ c, cost i = some c)
    (hdear : ∀ i ∈ items, P i = false → payable cost budget i = false)
    (hcovers : total cost (items.filter P) ≤ budget) :
    pay cost items budget = items.filter P := by
  induction items generalizing budget with
  | nil => rfl
  | cons i rest ih =>
      have hpayable' := fun j hj => hpayable j (List.mem_cons_of_mem i hj)
      have hdear' : ∀ b, b ≤ budget → ∀ j ∈ rest, P j = false → payable cost b j = false := by
        intro b hb j hj hP
        have hnot := hdear j (List.mem_cons_of_mem _ hj) hP
        rw [← Bool.not_eq_true, payable_iff] at hnot ⊢
        rintro ⟨c, hcost, hle⟩
        exact hnot ⟨c, hcost, hle.trans hb⟩
      cases hP : P i with
      | true =>
          obtain ⟨c, hcost⟩ := hpayable i List.mem_cons_self hP
          rw [List.filter_cons_of_pos hP, total_cons, hcost, Option.getD_some] at hcovers
          rw [List.filter_cons_of_pos hP, pay_some hcost (by omega),
            ih hpayable' (hdear' _ (Nat.sub_le _ _)) (by omega)]
      | false =>
          have hnot := hdear i List.mem_cons_self hP
          rw [List.filter_cons_of_neg (by simp [hP])] at hcovers ⊢
          cases hcost : cost i with
          | none =>
              rw [pay_none hcost]
              exact ih hpayable' (hdear' _ le_rfl) hcovers
          | some c =>
              have hlt : budget < c := by
                by_contra hle
                rw [← Bool.not_eq_true, payable_iff] at hnot
                exact hnot ⟨c, hcost, Nat.not_lt.mp hle⟩
              rw [pay_short hcost hlt]
              exact ih hpayable' (hdear' _ le_rfl) hcovers

/-- **A budget that covers all it could pay pays all of it**, in every order. -/
theorem pay_eq_filter {items : List ι} {budget : Nat}
    (h : total cost (items.filter (payable cost budget)) ≤ budget) :
    pay cost items budget = items.filter (payable cost budget) :=
  pay_eq_filter_of (fun _ _ hP => (payable_iff.mp hP).imp fun _ hc => hc.1) (fun _ _ hP => hP) h

theorem total_le_of_subset {items items' : List ι} (hnodup : items.Nodup) (h : items ⊆ items') :
    total cost items ≤ total cost items' := by
  obtain ⟨l, hperm, hsub⟩ := List.subperm_of_subset hnodup h
  unfold total
  rw [← (hperm.map _).sum_eq]
  exact (hsub.map _).sum_le_sum fun _ _ => Nat.zero_le _

/-- **A budget that does not cover it leaves a bill** that it could have paid. -/
theorem exists_unpaid {items : List ι} (hnodup : items.Nodup) {budget : Nat}
    (h : budget < total cost (items.filter (payable cost budget))) :
    ∃ i ∈ items, payable cost budget i = true ∧ i ∉ pay cost items budget := by
  by_contra hall
  simp only [not_exists, not_and, not_not] at hall
  have hsubset : items.filter (payable cost budget) ⊆ pay cost items budget := by
    intro i hi
    rw [List.mem_filter] at hi
    exact hall i hi.1 hi.2
  have hle := (total_le_of_subset (hnodup.filter _) hsubset).trans (total_pay_le items budget)
  exact absurd h (Nat.not_lt.mpr hle)

/-- Which the budget pays first if it is asked first. -/
theorem mem_pay_first {i : ι} {budget : Nat} (h : payable cost budget i = true) (rest : List ι) :
    i ∈ pay cost (i :: rest) budget := by
  obtain ⟨c, hcost, hle⟩ := payable_iff.mp h
  rw [pay_some hcost hle]
  exact List.mem_cons_self

end Budget
