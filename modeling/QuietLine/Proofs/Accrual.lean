/-
What a loan's interest owes to the moments it is accrued at.

An accrual charges the time since the last one at a single rate, the late one once the
grace day is over.  Split at any moments, the charges add up to what is due, each
rounded down, unless an accrual spans the end of the grace day: it charges the late
spread for the time before it as well.  How much that is depends on when the accrual
before it was made.
-/
import QuietLine.Library.Floors
import QuietLine.Ledger.Risk

namespace QuietLine

open Outcome Floors

/-! ### What is due and what is charged

Amounts of interest are in ray units times `perYear`.
-/

/-- The divisor of an accrual. -/
def perYear : Nat := bps.toNat * year.toNat

namespace Loan

variable (l : Loan)

/-- The end of the grace day. -/
def graceEnd : Int := int64 (l.maturesAt + 86400)

/-- The seconds from `a` to `b` before the end of the grace day. -/
def timely (a b : Int) : Nat := (min b l.graceEnd - min a l.graceEnd).toNat

/-- The seconds from `a` to `b` after it. -/
def late (a b : Int) : Nat := (max b l.graceEnd - max a l.graceEnd).toNat

/-- The interest from `a` to `b`: at the loan's rate up to the end of the grace day and at 300
basis points more from then on. -/
def interestDue (a b : Int) : Nat :=
  l.principal.toNat * scale.toNat *
    (l.borrowerAPRBPS.toNat * l.timely a b + (l.borrowerAPRBPS.toNat + 300) * l.late a b)

/-- What one accrual from `a` to `b` charges above it: the spread for the time before. -/
def overcharge (a b : Int) : Nat :=
  if b > l.graceEnd then l.principal.toNat * scale.toNat * (300 * l.timely a b) else 0

/-- What one accrual from `a` to `b` charges. -/
def charge (a b : Int) : Nat := l.interestDue a b + l.overcharge a b

end Loan

/-- The intervals between `a` and the moments of a schedule. -/
def intervals : Int → List Int → List (Int × Int)
  | _, [] => []
  | a, b :: rest => (a, b) :: intervals b rest

/-- The charges of a schedule. -/
def Loan.charges (l : Loan) (schedule : List Int) : List Nat :=
  (intervals l.lastAccruedAt schedule).map fun i => l.charge i.1 i.2

/-- What they exceed the interest by. -/
def Loan.overcharges (l : Loan) (schedule : List Int) : Nat :=
  ((intervals l.lastAccruedAt schedule).map fun i => l.overcharge i.1 i.2).sum

/-! ### One accrual -/

section One

variable {l l' : Loan} {now : Int}

/-- A moment as the source has it. -/
def IsInt64 (t : Int) : Prop := -2 ^ 63 ≤ t ∧ t < 2 ^ 63

instance (t : Int) : Decidable (IsInt64 t) := inferInstanceAs (Decidable (_ ∧ _))

theorem timely_add_late {a b : Int} (h : a ≤ b) : l.timely a b + l.late a b = (b - a).toNat := by
  unfold Loan.timely Loan.late
  omega

theorem timely_eq_zero {a b : Int} (h : l.graceEnd ≤ a) : l.timely a b = 0 := by
  unfold Loan.timely
  omega

theorem late_eq_zero {a b : Int} (h : b ≤ l.graceEnd) : l.late a b = 0 := by
  unfold Loan.late
  omega

/-- The rate times the time, as the accrual has it. -/
theorem charge_eq {a b : Int} (hab : a ≤ b) :
    l.charge a b = l.principal.toNat *
      ((l.borrowerAPRBPS.toNat + if b > l.graceEnd then 300 else 0) *
        ((b - a).toNat * scale.toNat)) := by
  rw [← timely_add_late (l := l) hab]
  unfold Loan.charge Loan.interestDue Loan.overcharge
  by_cases hb : b > l.graceEnd
  · rw [if_pos hb, if_pos hb]
    ring
  · rw [if_neg hb, if_neg hb, late_eq_zero (Int.not_lt.mp hb)]
    ring

theorem accrualRate_ok {rate : UInt64} (h : accrualRate l now = .ok rate) :
    rate.toNat = l.borrowerAPRBPS.toNat + if now > l.graceEnd then 300 else 0 := by
  unfold accrualRate at h
  by_cases hnow : now > l.graceEnd
  · rw [if_pos hnow]
    rw [Loan.graceEnd] at hnow
    rw [if_pos hnow] at h
    simpa using checkedAdd_eq_ok.mp h
  · rw [if_neg hnow]
    rw [Loan.graceEnd] at hnow
    rw [if_neg hnow, Except.ok.injEq] at h
    simp [← h]

/-- The difference of two moments fits a `uint64`. -/
theorem toNat_elapsed {a b : Int} (ha : IsInt64 a) (hb : IsInt64 b) :
    (UInt64.ofNat (b - a).toNat).toNat = (b - a).toNat := by
  apply UInt64.toNat_ofNat_of_lt'
  obtain ⟨hl, _⟩ := ha
  obtain ⟨_, hn⟩ := hb
  have : (2 : Nat) ^ 64 = UInt64.size := rfl
  omega

/-- An accrual adds what it charges, rounded down. -/
theorem accrue_ok (hlast : IsInt64 l.lastAccruedAt) (hnow : IsInt64 now)
    (hlt : l.lastAccruedAt < now) (h : accrue l now = .ok l') :
    l'.accruedInterestRay.toNat =
      l.accruedInterestRay.toNat + l.charge l.lastAccruedAt now / perYear ∧
    l' = { l with accruedInterestRay := l'.accruedInterestRay, lastAccruedAt := now } := by
  unfold accrue at h
  rw [if_neg (Int.not_le.mpr hlt)] at h
  simp only [bind_eq_ok] at h
  obtain ⟨rate, hrate, increment, hincrement, accrued, haccrued, hl⟩ := h
  cases hl
  refine ⟨?_, rfl⟩
  have helapsed := toNat_elapsed hlast hnow
  rw [checkedAdd_eq_ok.mp haccrued, mulDivBy_floor hincrement, prod_four, prod_two, helapsed,
    accrualRate_ok hrate, charge_eq hlt.le, perYear]

end One

/-! ### A schedule of accruals -/

/-- Accruals at the moments of a schedule. -/
def accrueAll (l : Loan) (schedule : List Int) : Except LedgerError Loan :=
  schedule.foldlM accrue l

section Schedule

variable {l l' l₁ l₂ : Loan} {schedule : List Int}

theorem interestDue_add {a b c : Int} (hab : a ≤ b) (hbc : b ≤ c) :
    l.interestDue a b + l.interestDue b c = l.interestDue a c := by
  have htimely : l.timely a b + l.timely b c = l.timely a c := by
    unfold Loan.timely
    omega
  have hlate : l.late a b + l.late b c = l.late a c := by
    unfold Loan.late
    omega
  unfold Loan.interestDue
  rw [← htimely, ← hlate]
  ring

/-- The moments come one after another, from `a` on. -/
def Increasing (a : Int) (schedule : List Int) : Prop := (a :: schedule).Pairwise (· < ·)

theorem Increasing.cons {a b : Int} {rest : List Int} (h : Increasing a (b :: rest)) :
    a < b ∧ Increasing b rest := by
  obtain ⟨hhead, htail⟩ := List.pairwise_cons.mp h
  exact ⟨hhead b List.mem_cons_self, htail⟩

/-- The last moment of a schedule that starts at `a`. -/
def endOf (a : Int) (schedule : List Int) : Int := schedule.getLast?.getD a

theorem Increasing.le_endOf {a : Int} (h : Increasing a schedule) : a ≤ endOf a schedule := by
  unfold endOf
  cases hlast : schedule.getLast? with
  | none => exact le_rfl
  | some t =>
      have hmem : t ∈ schedule := List.mem_of_getLast? hlast
      exact (List.pairwise_cons.mp h).1 t hmem |>.le

theorem endOf_cons (a b : Int) (rest : List Int) : endOf a (b :: rest) = endOf b rest := by
  unfold endOf
  rw [List.getLast?_cons]
  rfl

/-- The charges are the interest of the whole time and what they exceed it by. -/
theorem sum_charges (h : Increasing l.lastAccruedAt schedule) :
    (l.charges schedule).sum =
      l.interestDue l.lastAccruedAt (endOf l.lastAccruedAt schedule) + l.overcharges schedule := by
  unfold Loan.charges Loan.overcharges
  generalize l.lastAccruedAt = a at h ⊢
  induction schedule generalizing a with
  | nil => simp [intervals, endOf, Loan.interestDue, Loan.timely, Loan.late]
  | cons b rest ih =>
      obtain ⟨hab, hrest⟩ := h.cons
      have hend : b ≤ endOf b rest := hrest.le_endOf
      simp only [intervals, List.map_cons, List.sum_cons]
      rw [ih b hrest, endOf_cons, ← interestDue_add hab.le hend, Loan.charge]
      omega

/-- A schedule adds its charges, each rounded down. -/
theorem accrueAll_ok (hlast : IsInt64 l.lastAccruedAt) (hmoments : ∀ t ∈ schedule, IsInt64 t)
    (hsorted : Increasing l.lastAccruedAt schedule) (h : accrueAll l schedule = .ok l') :
    l'.accruedInterestRay.toNat =
      l.accruedInterestRay.toNat + quotients perYear (l.charges schedule) := by
  induction schedule generalizing l with
  | nil =>
      cases h
      simp [Loan.charges, intervals]
  | cons t rest ih =>
      obtain ⟨hlt, hrest⟩ := hsorted.cons
      unfold accrueAll at h
      rw [List.foldlM_cons, bind_eq_ok] at h
      obtain ⟨l₁, hfirst, hlater⟩ := h
      have hnow : IsInt64 t := hmoments t List.mem_cons_self
      obtain ⟨hray, hl₁⟩ := accrue_ok hlast hnow hlt hfirst
      have hat : l₁.lastAccruedAt = t := by rw [hl₁]
      have hmoments' : ∀ t' ∈ rest, IsInt64 t' := fun t' ht' =>
        hmoments t' (List.mem_cons_of_mem _ ht')
      have hcharges : l₁.charges rest = (intervals t rest).map fun i => l.charge i.1 i.2 := by
        -- the terms it is charged on are those of `l`
        rw [hl₁]
        rfl
      have hih := ih (hat ▸ hnow) hmoments' (hat ▸ hrest) hlater
      rw [hih, hray, hcharges]
      simp only [Loan.charges, intervals, List.map_cons, quotients_cons]
      omega

/-- A schedule overcharges no more than a single accrual: only one of its intervals spans the end
of the grace day, and it starts later. -/
theorem overcharges_le (h : Increasing l.lastAccruedAt schedule) :
    l.overcharges schedule ≤
      l.overcharge l.lastAccruedAt (endOf l.lastAccruedAt schedule) := by
  have hzero : ∀ (rest : List Int) (b : Int), l.graceEnd ≤ b → Increasing b rest →
      ((intervals b rest).map fun i => l.overcharge i.1 i.2).sum = 0 := by
    intro rest
    induction rest with
    | nil => intro b _ _; rfl
    | cons c rest ih =>
        intro b hb h
        obtain ⟨hbc, hrest⟩ := h.cons
        simp only [intervals, List.map_cons, List.sum_cons, ih c (hb.trans hbc.le) hrest]
        simp [Loan.overcharge, timely_eq_zero hb]
  unfold Loan.overcharges
  generalize l.lastAccruedAt = a at h ⊢
  induction schedule generalizing a with
  | nil => simp [intervals]
  | cons b rest ih =>
      obtain ⟨hab, hrest⟩ := h.cons
      have hend := hrest.le_endOf
      simp only [intervals, List.map_cons, List.sum_cons]
      rw [endOf_cons]
      by_cases hb : b > l.graceEnd
      · rw [hzero rest b hb.le hrest, Nat.add_zero]
        have htimely : l.timely a b = l.timely a (endOf b rest) := by
          unfold Loan.timely
          omega
        unfold Loan.overcharge
        rw [if_pos hb, if_pos (lt_of_lt_of_le hb hend), htimely]
      · have hfirst : l.overcharge a b = 0 := if_neg hb
        rw [hfirst, Nat.zero_add]
        refine (ih b hrest).trans ?_
        have htimely : l.timely b (endOf b rest) ≤ l.timely a (endOf b rest) := by
          unfold Loan.timely
          omega
        unfold Loan.overcharge
        split
        · gcongr
        · exact le_rfl

end Schedule

/-! ### When the schedule does not matter -/

section Results

variable {l l₁ l₂ : Loan} {schedule : List Int}

/-- The schedule has not mattered: `l₁`, accrued at its moments, has the interest of `l₂`, accrued
at its end alone, and both have the interest that was due, up to one unit a moment. -/
structure ScheduleFree (l : Loan) (schedule : List Int) (l₁ l₂ : Loan) : Prop where
  close : l₁.accruedInterestRay.toNat < l₂.accruedInterestRay.toNat + schedule.length ∧
    l₂.accruedInterestRay.toNat < l₁.accruedInterestRay.toNat + schedule.length
  le_due : perYear * l₁.accruedInterestRay.toNat ≤ perYear * l.accruedInterestRay.toNat +
    l.interestDue l.lastAccruedAt (endOf l.lastAccruedAt schedule)
  due_lt : perYear * l.accruedInterestRay.toNat +
      l.interestDue l.lastAccruedAt (endOf l.lastAccruedAt schedule) <
    perYear * (l₁.accruedInterestRay.toNat + schedule.length)

/-- What is charged of the late spread for the time before it applies is lost in rounding: that of
the schedule, and what the single accrual charges above it. -/
def SpreadHidden (l : Loan) (schedule : List Int) : Prop :=
  let last := endOf l.lastAccruedAt schedule
  l.overcharges schedule ≤ remainders perYear (l.charges schedule) ∧
    l.overcharge l.lastAccruedAt last + remainders perYear (l.charges schedule) <
      l.overcharges schedule + l.charge l.lastAccruedAt last % perYear +
        schedule.length * perYear

theorem charges_ne_nil (hne : schedule ≠ []) : l.charges schedule ≠ [] := by
  obtain ⟨t, rest, rfl⟩ := List.exists_cons_of_ne_nil hne
  simp [Loan.charges, intervals]

theorem length_charges (l : Loan) (schedule : List Int) :
    (l.charges schedule).length = schedule.length := by
  unfold Loan.charges
  generalize l.lastAccruedAt = a
  induction schedule generalizing a with
  | nil => rfl
  | cons b rest ih => simp [intervals, ih b]

/-- **When the schedule does not matter**: exactly when the spread charged too early is lost in
rounding. -/
theorem schedule_free_iff (hlast : IsInt64 l.lastAccruedAt) (hne : schedule ≠ [])
    (hmoments : ∀ t ∈ schedule, IsInt64 t) (hsorted : Increasing l.lastAccruedAt schedule)
    (hmany : accrueAll l schedule = .ok l₁)
    (hone : accrue l (endOf l.lastAccruedAt schedule) = .ok l₂) :
    ScheduleFree l schedule l₁ l₂ ↔ SpreadHidden l schedule := by
  have hlt : l.lastAccruedAt < endOf l.lastAccruedAt schedule := by
    obtain ⟨t, rest, rfl⟩ := List.exists_cons_of_ne_nil hne
    obtain ⟨hlt, hrest⟩ := hsorted.cons
    rw [endOf_cons]
    exact hlt.trans_le hrest.le_endOf
  have hend : IsInt64 (endOf l.lastAccruedAt schedule) := by
    refine hmoments _ ?_
    unfold endOf
    rw [List.getLast?_eq_some_getLast hne]
    exact List.getLast_mem hne
  -- the two charges, as multiples of the divisor and a remainder
  have hyear : perYear = 315360000000 := rfl
  have hsum := quotients_add_remainders perYear (l.charges schedule)
  rw [sum_charges hsorted] at hsum
  have hsingle := Nat.div_add_mod (l.charge l.lastAccruedAt (endOf l.lastAccruedAt schedule)) perYear
  have hmod := Nat.mod_lt (l.charge l.lastAccruedAt (endOf l.lastAccruedAt schedule))
    (by decide : 0 < perYear)
  have hlost := remainders_lt (by decide : 0 < perYear) (charges_ne_nil (l := l) hne)
  rw [length_charges] at hlost
  have hover := overcharges_le hsorted
  have hcount : 0 < schedule.length := List.length_pos_iff.mpr hne
  have hmanyRay := accrueAll_ok hlast hmoments hsorted hmany
  obtain ⟨honeRay, _⟩ := accrue_ok hlast hend hlt hone
  have hsplit : l.charge l.lastAccruedAt (endOf l.lastAccruedAt schedule) =
      l.interestDue l.lastAccruedAt (endOf l.lastAccruedAt schedule) +
        l.overcharge l.lastAccruedAt (endOf l.lastAccruedAt schedule) := rfl
  unfold SpreadHidden
  dsimp only
  rw [hyear] at hsum hsingle hmod hlost hmanyRay honeRay ⊢
  constructor
  · rintro ⟨⟨_, hclose⟩, hle, _⟩
    rw [hyear] at hle
    constructor <;> omega
  · rintro ⟨hhidden, hclose⟩
    refine ⟨⟨by omega, by omega⟩, ?_, ?_⟩ <;> rw [hyear] <;> omega

/-- It is where no accrual spans the end of the grace day. -/
theorem spreadHidden_of_unspanned (hne : schedule ≠ [])
    (hsorted : Increasing l.lastAccruedAt schedule)
    (h : l.graceEnd ≤ l.lastAccruedAt ∨ endOf l.lastAccruedAt schedule ≤ l.graceEnd) :
    SpreadHidden l schedule := by
  have hsingle : l.overcharge l.lastAccruedAt (endOf l.lastAccruedAt schedule) = 0 := by
    unfold Loan.overcharge
    rcases h with h | h
    · simp [timely_eq_zero h]
    · exact if_neg (Int.not_lt.mpr h)
  have hmany : l.overcharges schedule = 0 := by
    have := overcharges_le hsorted
    omega
  have hlost := remainders_lt (by decide : 0 < perYear) (charges_ne_nil (l := l) hne)
  rw [length_charges] at hlost
  unfold SpreadHidden
  dsimp only
  omega

/-- It is not where a single accrual charges more than a unit a moment too early. -/
theorem not_spreadHidden (h : (schedule.length + 1) * perYear ≤
    l.overcharge l.lastAccruedAt (endOf l.lastAccruedAt schedule)) : ¬ SpreadHidden l schedule := by
  rintro ⟨hhidden, hclose⟩
  have hmod := Nat.mod_lt (l.charge l.lastAccruedAt (endOf l.lastAccruedAt schedule))
    (by decide : 0 < perYear)
  rw [Nat.add_mul, Nat.one_mul] at h
  omega

/-- A loan of 100 USDT0 over 14 days. -/
def lateLoan : Loan where
  id := "loan"
  borrower := "0xb"
  principal := 100000000
  collateralFXRP := 400000000
  borrowerAPRBPS := 1000
  termDays := 14
  startedAt := 0
  maturesAt := 1209600
  lastAccruedAt := 0
  tranches := [{ lender := "0xa", mandateID := "m", principal := 100000000, aprBPS := 950 }]
  status := .healthy

/-- Accrued at the end of the grace day and a second later it owes less than accrued then alone. -/
theorem lateLoan_scheduled : ∃ l₁ l₂, accrueAll lateLoan [1296000, 1296001] = .ok l₁ ∧
    accrue lateLoan 1296001 = .ok l₂ ∧ ¬ ScheduleFree lateLoan [1296000, 1296001] l₁ l₂ := by
  refine ⟨{ lateLoan with accruedInterestRay := 410959316336, lastAccruedAt := 1296001 },
    { lateLoan with accruedInterestRay := 534246987569, lastAccruedAt := 1296001 },
    by decide +kernel, by decide +kernel, ?_⟩
  rintro ⟨⟨_, hclose⟩, _, _⟩
  revert hclose
  decide +kernel

/-- Accrued every week up to its maturity it owes what it owes accrued once. -/
theorem schedule_free_iff_weekly : ∃ l₁ l₂, accrueAll lateLoan [604800, 1209600] = .ok l₁ ∧
    accrue lateLoan 1209600 = .ok l₂ ∧
    (ScheduleFree lateLoan [604800, 1209600] l₁ l₂ ↔ SpreadHidden lateLoan [604800, 1209600]) := by
  refine ⟨{ lateLoan with accruedInterestRay := 383561643834, lastAccruedAt := 1209600 },
    { lateLoan with accruedInterestRay := 383561643835, lastAccruedAt := 1209600 },
    by decide +kernel, by decide +kernel, ?_⟩
  exact schedule_free_iff (by decide) (by simp) (by decide) (by unfold Increasing; decide)
    (by decide +kernel) (by decide +kernel)

end Results

end QuietLine
