/-
When a risk tick goes through.

`RiskTick` computes the figures of every open loan, and liquidates the loans that the backstop can
pay one after the other.  Each of these steps can fail, and one that does fails the tick.  What a
step needs is told here by the figures of the loans before the tick, in unbounded arithmetic: the
figures have to fit a word (`Loan.Assessable`), and so do what the paid bills seize and what they
add up to (`Settles`).
-/
import QuietLine.Proofs.Bills
import QuietLine.Proofs.Stress

namespace QuietLine

open Outcome MapSum MapRel
open Std (ExtTreeMap)

/-! ### The figures of one loan -/

namespace Loan

variable (l : Loan) (price : UInt64) (now : Int)

/-- The debt as a share of the collateral, in basis points. -/
def ratio : Nat := l.owed now * bps.toNat / l.worth price

/-- Where the collateral is worth something and the debt has a share in it, a liquidation price is
computed. -/
def liquidationPrice : Nat :=
  l.owed now * bps.toNat * scale.toNat / (l.collateralFXRP.toNat * 6500)

/-- The figures of the loan fit a word. -/
structure Assessable : Prop where
  accrued : l.accruedInterestRay.toNat + l.charge l.lastAccruedAt now / perYear < 2 ^ 64
  owed : l.owed now < 2 ^ 64
  worth : l.worth price < 2 ^ 64
  ratio : l.ratio price now < 2 ^ 64
  liquidationPrice : l.ratio price now ≠ 0 → l.liquidationPrice now < 2 ^ 64

/-- The verdict at `price`: the collateral is worth nothing, the loan is late, or the debt is too
large a share. -/
def Liquidatable : Prop :=
  l.worth price = 0 ∨ l.ratio price now ≠ 0 ∧ (l.graceEnd < now ∨ 6500 ≤ l.ratio price now)

instance : Decidable (l.Liquidatable price now) := inferInstanceAs (Decidable (_ ∨ _))

end Loan

section Figures

variable {l l' : Loan} {price : UInt64} {now : Int}

theorem ratio_toNat {value due ltv : UInt64} (hworth : value.toNat = l.worth price)
    (howed : due.toNat = l.owed now) (h : mulDiv [due, bps] value false = .ok ltv) :
    ltv.toNat = l.ratio price now := by
  rw [(mulDiv_eq_ok h).2, prod_two, howed, hworth]
  rfl

theorem riskStatus_liquidatable {ltv : UInt64} (h : ltv.toNat = l.ratio price now) :
    riskStatus l ltv now = .liquidatable ↔ l.graceEnd < now ∨ 6500 ≤ l.ratio price now := by
  rw [← h]
  unfold riskStatus Loan.graceEnd
  have hle : ltv ≥ 6500 ↔ 6500 ≤ ltv.toNat := UInt64.le_iff_toNat_le
  by_cases hhigh : now > int64 (l.maturesAt + 86400) ∨ ltv ≥ 6500
  · rw [if_pos hhigh]
    simpa [hle] using hhigh
  · rw [if_neg hhigh, ← hle]
    refine iff_of_false ?_ hhigh
    split
    · decide
    · split <;> decide

/-- What the ledger makes of a loan, in the figures above. -/
structure Loan.Assessed (l : Loan) (price : UInt64) (now : Int) (l' : Loan) : Prop where
  assessable : l.Assessable price now
  liquidatable : l'.status = .liquidatable ↔ l.Liquidatable price now
  owes : debt l' = .ok (UInt64.ofNat (l.owed now))
  terms : l.SameTerms l'

theorem assess_assessed (hlast : IsInt64 l.lastAccruedAt) (hnow : IsInt64 now)
    (h : assess price now l = .ok l') : l.Assessed price now l' := by
  obtain ⟨hterms, _⟩ := assess_sameTerms h
  unfold assess at h
  obtain ⟨l₁, haccrue, hrisk⟩ := bind_eq_ok.mp h
  obtain ⟨hray, hmatures⟩ := accrue_toNat hlast hnow haccrue
  have hcollateral := (accrue_sameTerms haccrue).1.collateralFXRP
  have hwrites := (updateRisk_writes hrisk).1
  have hsame : debt l' = debt l₁ := by
    rw [hwrites]
    rfl
  have haccrued : l.accruedInterestRay.toNat + l.charge l.lastAccruedAt now / perYear < 2 ^ 64 :=
    hray ▸ l₁.accruedInterestRay.toNat_lt
  unfold updateRisk at hrisk
  rw [hcollateral] at hrisk
  simp only [bind_eq_ok] at hrisk
  obtain ⟨value, hvalue, due, hdue, hrisk⟩ := hrisk
  have hworth := worth_toNat hvalue
  have howed := debt_toNat hlast hnow haccrue hdue
  have howes : debt l' = .ok (UInt64.ofNat (l.owed now)) := by
    rw [hsame, hdue, ← howed, UInt64.ofNat_toNat]
  have howedlt : l.owed now < 2 ^ 64 := howed ▸ due.toNat_lt
  have hworthlt : l.worth price < 2 ^ 64 := hworth ▸ value.toNat_lt
  by_cases hzero : value = 0
  · have hnothing : l.worth price = 0 := by rw [← hworth, hzero]; rfl
    have hratio : l.ratio price now = 0 := by simp [Loan.ratio, hnothing]
    rw [if_pos hzero] at hrisk
    obtain rfl := Except.ok.inj hrisk
    refine ⟨⟨haccrued, howedlt, hworthlt, by simp [hratio], by simp [hratio]⟩, ?_, howes, hterms⟩
    simp [Loan.Liquidatable, hnothing]
  · have hsomething : l.worth price ≠ 0 := by
      rw [← hworth]
      exact fun h0 => hzero (UInt64.toNat_inj.mp h0)
    rw [if_neg hzero] at hrisk
    obtain ⟨ltv, hltv, hrisk⟩ := bind_eq_ok.mp hrisk
    have hratio := ratio_toNat hworth howed hltv
    have hratiolt : l.ratio price now < 2 ^ 64 := hratio ▸ ltv.toNat_lt
    by_cases hnone : ltv = 0
    · have hshare : l.ratio price now = 0 := by rw [← hratio, hnone]; rfl
      rw [if_pos hnone] at hrisk
      obtain rfl := Except.ok.inj hrisk
      refine ⟨⟨haccrued, howedlt, hworthlt, hratiolt, by simp [hshare]⟩, ?_, howes, hterms⟩
      simp [Loan.Liquidatable, hsomething, hshare]
    · have hshare : l.ratio price now ≠ 0 := by
        rw [← hratio]
        exact fun h0 => hnone (UInt64.toNat_inj.mp h0)
      rw [if_neg hnone] at hrisk
      simp only [bind_eq_ok] at hrisk
      obtain ⟨health, _, liquidation, hliquidation, hl'⟩ := hrisk
      have hprice := mulDivBy_floor hliquidation
      rw [prod_three, prod_two, howed] at hprice
      have hpricelt : l.liquidationPrice now < 2 ^ 64 := by
        unfold Loan.liquidationPrice
        exact hprice ▸ liquidation.toNat_lt
      obtain rfl := Except.ok.inj hl'
      refine ⟨⟨haccrued, howedlt, hworthlt, hratiolt, fun _ => hpricelt⟩, ?_, howes, hterms⟩
      have hstatus : riskStatus l₁ ltv now = riskStatus l ltv now := by
        simp [riskStatus, hmatures]
      show riskStatus l₁ ltv now = .liquidatable ↔ _
      rw [hstatus, riskStatus_liquidatable hratio]
      simp [Loan.Liquidatable, hsomething, hshare]

theorem Loan.Assessable.assess (hlast : IsInt64 l.lastAccruedAt) (hnow : IsInt64 now)
    (h : l.Assessable price now) : ∃ l', assess price now l = .ok l' := by
  obtain ⟨l₁, haccrue⟩ := accrue_succeeds hlast hnow h.accrued
  obtain ⟨hray, _⟩ := accrue_toNat hlast hnow haccrue
  have hterms := (accrue_sameTerms haccrue).1
  obtain ⟨due, hdue⟩ : ∃ due, debt l₁ = .ok due := by
    refine ⟨_, checkedAdd_ok ?_⟩
    rw [UInt64.toNat_div, hray, hterms.principal]
    exact h.owed
  have howed := debt_toNat hlast hnow haccrue hdue
  obtain ⟨value, hvalue⟩ : ∃ value, mulDiv [l.collateralFXRP, price] scale false = .ok value :=
    ⟨_, mulDiv_ok (by decide) (by rw [prod_two]; exact h.worth)⟩
  have hworth := worth_toNat hvalue
  unfold QuietLine.assess
  rw [haccrue, ok_bind]
  rw [← hterms.collateralFXRP] at hvalue
  by_cases hzero : value = 0
  · unfold updateRisk
    rw [hvalue, ok_bind, hdue, ok_bind, if_pos hzero]
    exact ⟨_, rfl⟩
  · obtain ⟨ltv, hltv⟩ : ∃ ltv, mulDiv [due, bps] value false = .ok ltv := by
      refine ⟨_, mulDiv_ok hzero ?_⟩
      rw [prod_two, howed, hworth]
      exact h.ratio
    have hratio := ratio_toNat hworth howed hltv
    refine updateRisk_succeeds hvalue hzero hdue hltv ?_
    by_cases hnone : ltv = 0
    · exact Or.inl hnone
    · have hshare : l.ratio price now ≠ 0 := by
        rw [← hratio]
        exact fun h0 => hnone (UInt64.toNat_inj.mp h0)
      have hcollateral : 0 < l.collateralFXRP.toNat := by
        refine Nat.pos_of_ne_zero fun h0 => hzero (UInt64.toNat_inj.mp ?_)
        rw [hworth]
        simp [Loan.worth, h0]
      have hprice := h.liquidationPrice hshare
      unfold Loan.liquidationPrice at hprice
      rw [Nat.div_lt_iff_lt_mul (Nat.mul_pos hcollateral (by decide))] at hprice
      rw [howed, hterms.collateralFXRP]
      exact Or.inr hprice

end Figures

/-! ### The bills of a tick -/

namespace State

variable (s : State) (price : UInt64) (now : Int)

/-- The bill of the loan filed under `id`, where it is one to liquidate. -/
def bill (id : String) : Option Bill :=
  s.loans[id]?.bind fun l =>
    if l.isOpen = true ∧ l.Liquidatable price now then some ⟨l, UInt64.ofNat (l.owed now)⟩
    else none

def cost (id : String) : Option Nat := (s.bill price now id).map fun b => b.due.toNat

/-- The loans that the backstop pays off, asked in the order `ids`. -/
def paid (ids : List String) : List String :=
  Budget.pay (s.cost price now) ids s.backstopUSDT0.toNat

def bills (ids : List String) : List Bill := ids.filterMap (s.bill price now)

/-- What a tick asks of the loans `ids`, taken in this order. -/
structure TickFits (ids : List String) : Prop where
  assessable : ∀ id ∈ ids, ∀ l, s.loans[id]? = some l → l.isOpen = true → l.Assessable price now
  cover : ∀ b ∈ s.bills price now (s.paid price now ids), b.cover price < 2 ^ 64
  settles : Settles s (s.bills price now (s.paid price now ids))

/-- What the engine relies on in the loans `ids`. -/
def Sane (ids : List String) : Prop :=
  ∀ id ∈ ids, ∀ l, s.loans[id]? = some l → l.Funded ∧ IsInt64 l.lastAccruedAt

end State

section Bills

variable {s s' : State} {price : UInt64} {now : Int} {id : String} {ids : List String} {b : Bill}

theorem bill_eq_some : s.bill price now id = some b ↔
    ∃ l, s.loans[id]? = some l ∧ l.isOpen = true ∧ l.Liquidatable price now ∧
      b = ⟨l, UInt64.ofNat (l.owed now)⟩ := by
  unfold State.bill
  simp only [Option.bind_eq_some_iff, Option.ite_none_right_eq_some, Option.some.injEq, and_assoc,
    eq_comm (b := b)]

theorem bill_congr (h : s'.loans[id]? = s.loans[id]?) :
    s'.bill price now id = s.bill price now id := by
  unfold State.bill
  rw [h]

theorem bills_append (ids ids' : List String) :
    s.bills price now (ids ++ ids') = s.bills price now ids ++ s.bills price now ids' :=
  List.filterMap_append

theorem mem_bills : b ∈ s.bills price now ids ↔ ∃ id ∈ ids, s.bill price now id = some b :=
  List.mem_filterMap

/-- The bills of the loans that are paid cost what is paid. -/
theorem total_bills (s : State) (price : UInt64) (now : Int) (ids : List String) :
    ((s.bills price now ids).map fun b => b.due.toNat).sum =
      Budget.total (s.cost price now) ids := by
  induction ids with
  | nil => rfl
  | cons id rest ih =>
      unfold State.bills at ih ⊢
      rw [Budget.total_cons, ← ih]
      cases hbill : s.bill price now id with
      | none => simp [State.cost, hbill]
      | some b => simp [State.cost, hbill]

theorem State.Sane.bill_funded (h : s.Sane ids) (hb : b ∈ s.bills price now ids) :
    b.loan.Funded := by
  obtain ⟨id, hid, hbill⟩ := mem_bills.mp hb
  obtain ⟨l, hl, _, _, rfl⟩ := bill_eq_some.mp hbill
  exact (h id hid l hl).1

theorem State.Sane.subset {ids' : List String} (h : s.Sane ids) (hsub : ids' ⊆ ids) : s.Sane ids' :=
  fun id hid => h id (hsub hid)

/-- The lenders' shares stay below the interest. -/
theorem Loan.Funded.shares (h : b.loan.Funded) :
    interestTotal b.payments ≤ b.interest.toNat := by
  rw [interestTotal_payments]
  exact h.parts_le b.interest

/-- Where the rest of the loans is as before, and the backstop is what the first one left, the bills
are those of the first loan and those that are paid then. -/
theorem paid_cons {s₁ : State} {rest : List String}
    (hrest : ∀ id' ∈ rest, s₁.loans[id']? = s.loans[id']?)
    (hsettled : BillsSettled price (s.bills price now (s.paid price now [id])) s s₁) :
    s.paid price now (id :: rest) = s.paid price now [id] ++ s₁.paid price now rest ∧
    s.bills price now (s.paid price now (id :: rest)) =
      s.bills price now (s.paid price now [id]) ++
        s₁.bills price now (s₁.paid price now rest) := by
  have hbill : ∀ id' ∈ rest, s₁.bill price now id' = s.bill price now id' := fun id' hid' =>
    bill_congr (hrest id' hid')
  have hcost : ∀ id' ∈ rest, s₁.cost price now id' = s.cost price now id' := by
    intro id' hid'
    unfold State.cost
    rw [hbill id' hid']
  have hback := hsettled.backstopUSDT0
  rw [total_bills] at hback
  have hleft : s.backstopUSDT0.toNat - Budget.total (s.cost price now) (s.paid price now [id]) =
      s₁.backstopUSDT0.toNat := by omega
  have hpaid : s.paid price now (id :: rest) =
      s.paid price now [id] ++ s₁.paid price now rest := by
    unfold State.paid at hleft ⊢
    rw [Budget.pay_cons, hleft, Budget.pay_congr hcost]
  refine ⟨hpaid, ?_⟩
  rw [hpaid, bills_append]
  congr 1
  refine List.filterMap_congr fun id' hid' => (hbill id' ?_).symm
  exact (Budget.pay_sublist rest _).subset hid'

theorem bill_paid (hbill : s.bill price now id = some b)
    (hle : b.due.toNat ≤ s.backstopUSDT0.toNat) :
    s.paid price now [id] = [id] ∧ s.bills price now (s.paid price now [id]) = [b] := by
  have hcost : s.cost price now id = some b.due.toNat := by simp [State.cost, hbill]
  have hpaid : s.paid price now [id] = [id] := Budget.pay_some hcost hle []
  rw [hpaid]
  exact ⟨rfl, by simp [State.bills, hbill]⟩

theorem bill_unpaid (h : ∀ b, s.bill price now id = some b →
    s.backstopUSDT0.toNat < b.due.toNat) :
    s.paid price now [id] = [] ∧ s.bills price now (s.paid price now [id]) = [] := by
  have hpaid : s.paid price now [id] = [] := by
    unfold State.paid
    cases hbill : s.bill price now id with
    | none => exact Budget.pay_none (by simp [State.cost, hbill]) [] _
    | some b => exact Budget.pay_short (by simp [State.cost, hbill]) (h b hbill) []
  rw [hpaid]
  exact ⟨rfl, rfl⟩

end Bills

/-! ### One round -/

/-- What becomes of the loan filed under `id` when the loans `ids` are visited, and those in `paid`
liquidated. -/
def Loan.Visited (price : UInt64) (now : Int) (ids paid : List String) (id : String)
    (l l' : Loan) : Prop :=
  if id ∈ ids ∧ l.isOpen = true then
    ∃ l₁, assess price now l = .ok l₁ ∧
      l' = if id ∈ paid then { l₁ with status := .liquidated } else l₁
  else l' = l

/-- What the rounds on the loans `ids` leave. -/
structure State.TickLeft (price : UInt64) (now : Int) (ids : List String) (s s' : State) :
    Prop where
  settled : BillsSettled price (s.bills price now (s.paid price now ids)) s s'
  loans : Pointwise (Loan.Visited price now ids (s.paid price now ids)) s.loans s'.loans

section Round

variable {ctx : Context} {price : Price} {s s' : State} {id : String} {l l' : Loan}

/-- A round that writes the loan at most. -/
theorem tickLeft_of_unpaid {p : UInt64} {now : Int}
    (hunpaid : ∀ b, s.bill p now id = some b → s.backstopUSDT0.toNat < b.due.toNat)
    (hframe : s' = { s with loans := s'.loans })
    (hloans : Pointwise (Loan.Visited p now [id] []) s.loans s'.loans) :
    s.TickLeft p now [id] s' := by
  obtain ⟨hpaid, hbills⟩ := bill_unpaid hunpaid
  refine ⟨?_, ?_⟩
  · rw [hbills]
    exact BillsSettled.of_loans hframe
  · rw [hpaid]
    exact hloans

/-- Where no bill is paid, a round needs the figures of the loan only. -/
theorem tickFits_of_unpaid {p : UInt64} {now : Int}
    (hunpaid : ∀ b, s.bill p now id = some b → s.backstopUSDT0.toNat < b.due.toNat) :
    s.TickFits p now [id] ↔
      ∀ l, s.loans[id]? = some l → l.isOpen = true → l.Assessable p now := by
  obtain ⟨_, hbills⟩ := bill_unpaid hunpaid
  constructor
  · intro h
    exact h.assessable id (List.mem_singleton_self id)
  · intro h
    refine ⟨fun id' hid' => List.mem_singleton.mp hid' ▸ h, ?_, ?_⟩
    · rw [hbills]
      simp
    · rw [hbills]
      exact settles_nil s

theorem insert_insert (m : ExtTreeMap String Loan) (id : String) (l l' : Loan) :
    (m.insert id l).insert id l' = m.insert id l' := by
  refine ExtTreeMap.ext_getElem? fun id' => ?_
  simp only [getElem?_insert_eq]
  split
  · rfl
  · rfl

theorem visited_putLoan {p : UInt64} {now : Int} {paid : List String} {s₁ : State}
    (hl : s.loans[id]? = some l) (hopen : l.isOpen = true) (hassess : assess p now l = .ok l')
    (hloans : s₁.loans = s.loans.insert id
      (if id ∈ paid then { l' with status := .liquidated } else l')) :
    Pointwise (Loan.Visited p now [id] paid) s.loans s₁.loans := by
  intro id'
  rw [hloans, getElem?_insert_eq]
  by_cases hid : id = id'
  · subst hid
    rw [if_pos rfl, hl]
    refine Option.Rel.some ?_
    unfold Loan.Visited
    rw [if_pos ⟨List.mem_singleton_self id, hopen⟩]
    exact ⟨l', hassess, rfl⟩
  · rw [if_neg hid]
    cases s.loans[id']? with
    | none => exact Option.Rel.none
    | some l₀ =>
        refine Option.Rel.some ?_
        unfold Loan.Visited
        rw [if_neg]
        rw [List.mem_singleton]
        exact fun h => hid h.1.symm

/-- A loan that is not open is passed over. -/
theorem tickLoan_passes {p : UInt64} (hclosed : ∀ l, s.loans[id]? = some l → l.isOpen = false) :
    s.TickFits p ctx.now [id] ∧ s.TickLeft p ctx.now [id] s := by
  have hunpaid : ∀ b, s.bill p ctx.now id = some b → s.backstopUSDT0.toNat < b.due.toNat := by
    intro b hb
    obtain ⟨l, hl, hopen, _⟩ := bill_eq_some.mp hb
    rw [hclosed l hl] at hopen
    cases hopen
  refine ⟨(tickFits_of_unpaid hunpaid).mpr fun l hl hopen => ?_,
    tickLeft_of_unpaid hunpaid rfl (Pointwise.refl fun id' l hl => ?_)⟩
  · rw [hclosed l hl] at hopen
    cases hopen
  · unfold Loan.Visited
    rw [if_neg]
    rw [List.mem_singleton]
    rintro ⟨rfl, hopen⟩
    rw [hclosed l hl] at hopen
    cases hopen

/-- A loan whose bill is not paid is brought up to date. -/
theorem tickLoan_updates (hl : s.loans[id]? = some l) (hopen : l.isOpen = true)
    (hassess : assess price.xrpUSDE6 ctx.now l = .ok l')
    (hassessed : l.Assessed price.xrpUSDE6 ctx.now l')
    (hunpaid : l.Liquidatable price.xrpUSDE6 ctx.now → s.backstopUSDT0.toNat < l.owed ctx.now) :
    tickLoan .wrapping ctx price s id = .ok (s.putLoan id l') ∧
      s.TickFits price.xrpUSDE6 ctx.now [id] ∧
      s.TickLeft price.xrpUSDE6 ctx.now [id] (s.putLoan id l') := by
  have howed : (UInt64.ofNat (l.owed ctx.now)).toNat = l.owed ctx.now :=
    UInt64.toNat_ofNat_of_lt' hassessed.assessable.owed
  have hdear : ∀ b, s.bill price.xrpUSDE6 ctx.now id = some b →
      s.backstopUSDT0.toNat < b.due.toNat := by
    intro b hb
    obtain ⟨l₀, hl₀, _, hliquidatable, rfl⟩ := bill_eq_some.mp hb
    rw [hl] at hl₀
    obtain rfl := Option.some.inj hl₀
    rw [howed]
    exact hunpaid hliquidatable
  have hkeeps : ¬ (l'.status = .liquidatable ∧
      s.backstopUSDT0 ≥ UInt64.ofNat (l.owed ctx.now)) := by
    rintro ⟨hstatus, hle⟩
    have hlt := hunpaid (hassessed.liquidatable.mp hstatus)
    have hle' := UInt64.le_iff_toNat_le.mp hle
    omega
  refine ⟨?_, (tickFits_of_unpaid hdear).mpr fun l₀ hl₀ _ => ?_,
    tickLeft_of_unpaid hdear rfl (visited_putLoan hl hopen hassess (by simp [State.putLoan]))⟩
  · rw [tickLoan_open hl hopen, hassess, ok_bind, hassessed.owes, ok_bind, if_neg hkeeps]
    rfl
  · rw [hl] at hl₀
    obtain rfl := Option.some.inj hl₀
    exact hassessed.assessable

/-- A loan whose bill the backstop can pay is liquidated, if that goes through. -/
theorem tickLoan_liquidates (hprice : s.price = price) (hpos : price.xrpUSDE6 ≠ 0)
    (hfunded : l.Funded) (hl : s.loans[id]? = some l) (hopen : l.isOpen = true)
    (hassess : assess price.xrpUSDE6 ctx.now l = .ok l')
    (hassessed : l.Assessed price.xrpUSDE6 ctx.now l')
    (hliquidatable : l.Liquidatable price.xrpUSDE6 ctx.now)
    (hle : l.owed ctx.now ≤ s.backstopUSDT0.toNat) :
    ((∃ s', tickLoan .wrapping ctx price s id = .ok s') ↔
      s.TickFits price.xrpUSDE6 ctx.now [id]) ∧
    ∀ s', tickLoan .wrapping ctx price s id = .ok s' →
      s.TickLeft price.xrpUSDE6 ctx.now [id] s' := by
  have howed : (UInt64.ofNat (l.owed ctx.now)).toNat = l.owed ctx.now :=
    UInt64.toNat_ofNat_of_lt' hassessed.assessable.owed
  obtain ⟨b, hbill, rfl, hdue⟩ : ∃ b, s.bill price.xrpUSDE6 ctx.now id = some b ∧ b.loan = l ∧
      b.due = UInt64.ofNat (l.owed ctx.now) :=
    ⟨_, bill_eq_some.mpr ⟨l, hl, hopen, hliquidatable, rfl⟩, rfl, rfl⟩
  have hback : b.due.toNat ≤ s.backstopUSDT0.toNat := by rw [hdue, howed]; exact hle
  have howes : debt l' = .ok b.due := hdue ▸ hassessed.owes
  obtain ⟨hpaid, hbills⟩ := bill_paid hbill hback
  have hpays : l'.status = .liquidatable ∧ s.backstopUSDT0 ≥ b.due :=
    ⟨hassessed.liquidatable.mpr hliquidatable, UInt64.le_iff_toNat_le.mpr hback⟩
  have hround : tickLoan .wrapping ctx price s id =
      liquidateInState .wrapping (s.putLoan id l') id l' := by
    rw [tickLoan_open hl hopen, hassess, ok_bind, howes, ok_bind, if_pos hpays]
  have hput : BillsSettled price.xrpUSDE6 [] s (s.putLoan id l') := BillsSettled.of_loans rfl
  have hputPrice : (s.putLoan id l').price = price := hprice
  have hputBack : b.due.toNat ≤ (s.putLoan id l').backstopUSDT0.toNat := hback
  rw [hround]
  constructor
  · have hiff : (∃ s', liquidateInState .wrapping (s.putLoan id l') id l' = .ok s') ↔
        b.cover price.xrpUSDE6 < 2 ^ 64 ∧ Settles (s.putLoan id l') [b] := by
      rw [← hputPrice] at hpos ⊢
      exact liquidateInState_iff hfunded hassessed.terms howes hputBack hpos
    rw [hiff, ← hput.settles_append]
    constructor
    · rintro ⟨hcover, hsettles⟩
      refine ⟨fun id' hid' l₀ hl₀ _ => ?_, ?_, ?_⟩
      · rw [List.mem_singleton.mp hid', hl] at hl₀
        obtain rfl := Option.some.inj hl₀
        exact hassessed.assessable
      · rw [hbills]
        simpa using hcover
      · rw [hbills]
        exact hsettles
    · rintro ⟨_, hcover, hsettles⟩
      rw [hbills] at hcover hsettles
      exact ⟨hcover b (List.mem_singleton_self b), hsettles⟩
  · intro s' h
    obtain ⟨hsettled, hloans⟩ :=
      liquidateInState_settled hfunded hassessed.terms howes hputBack h
    rw [hputPrice] at hsettled
    refine ⟨?_, ?_⟩
    · rw [hbills]
      exact hput.trans hsettled
    · rw [hpaid]
      refine visited_putLoan hl hopen hassess ?_
      rw [hloans, if_pos (List.mem_singleton_self id)]
      exact insert_insert s.loans id l' _

/-- **One round**: when it goes through, and what it leaves. -/
theorem tickLoan_iff (hnow : IsInt64 ctx.now) (hprice : s.price = price)
    (hpos : price.xrpUSDE6 ≠ 0) (hsane : s.Sane [id]) :
    ((∃ s', tickLoan .wrapping ctx price s id = .ok s') ↔
      s.TickFits price.xrpUSDE6 ctx.now [id]) ∧
    ∀ s', tickLoan .wrapping ctx price s id = .ok s' →
      s.TickLeft price.xrpUSDE6 ctx.now [id] s' := by
  by_cases hclosed : ∀ l, s.loans[id]? = some l → l.isOpen = false
  · obtain ⟨hfits, hleft⟩ := @tickLoan_passes ctx s id price.xrpUSDE6 hclosed
    rw [tickLoan_closed hclosed]
    refine ⟨⟨fun _ => hfits, fun _ => ⟨s, rfl⟩⟩, fun s' h => ?_⟩
    rw [← Except.ok.inj h]
    exact hleft
  · simp only [not_forall, Bool.not_eq_false] at hclosed
    obtain ⟨l, hl, hopen⟩ := hclosed
    obtain ⟨hfunded, hlast⟩ := hsane id (List.mem_singleton_self id) l hl
    cases hassess : assess price.xrpUSDE6 ctx.now l with
    | error e =>
        have hfails : ∀ s', tickLoan .wrapping ctx price s id ≠ .ok s' := by
          intro s' h
          rw [tickLoan_open hl hopen, hassess] at h
          cases h
        refine ⟨iff_of_false (fun h => hfails _ h.choose_spec) fun hfits => ?_,
          fun s' h => absurd h (hfails s')⟩
        obtain ⟨l', hl'⟩ := (hfits.assessable id (List.mem_singleton_self id) l hl
          hopen).assess hlast hnow
        rw [hassess] at hl'
        cases hl'
    | ok l' =>
        have hassessed := assess_assessed hlast hnow hassess
        by_cases hpays : l.Liquidatable price.xrpUSDE6 ctx.now ∧
            l.owed ctx.now ≤ s.backstopUSDT0.toNat
        · exact tickLoan_liquidates hprice hpos hfunded hl hopen hassess hassessed hpays.1 hpays.2
        · obtain ⟨hround, hfits, hleft⟩ := tickLoan_updates hl hopen hassess hassessed
            fun hliquidatable => Nat.not_le.mp fun hle => hpays ⟨hliquidatable, hle⟩
          rw [hround]
          refine ⟨⟨fun _ => hfits, fun _ => ⟨_, rfl⟩⟩, fun s' h => ?_⟩
          rw [← Except.ok.inj h]
          exact hleft

end Round

/-! ### The loop -/

section Loop

variable {ctx : Context} {price : Price} {p : UInt64} {now : Int} {s s₁ s₂ : State} {id : String}
  {ids rest : List String}

theorem State.TickLeft.others (h : s.TickLeft p now ids s₁) {id' : String} (hid : id' ∉ ids) :
    s₁.loans[id']? = s.loans[id']? := by
  cases hl : s.loans[id']? with
  | none => exact h.loans.get_none hl
  | some l =>
      obtain ⟨l', hl', hvisited⟩ := h.loans.get hl
      unfold Loan.Visited at hvisited
      rw [if_neg fun hin => hid hin.1] at hvisited
      rw [hl', hvisited]

theorem mem_paid {id' : String} (h : id' ∈ s.paid p now ids) : id' ∈ ids :=
  (Budget.pay_sublist ids _).subset h

/-- What a loop needs, its first round needs. -/
theorem State.TickFits.head (hsane : s.Sane (id :: rest)) (h : s.TickFits p now (id :: rest)) :
    s.TickFits p now [id] := by
  obtain ⟨later, hpaid, hsub⟩ : ∃ later, s.paid p now (id :: rest) = s.paid p now [id] ++ later ∧
      later ⊆ rest :=
    ⟨_, Budget.pay_cons id rest _, (Budget.pay_sublist rest _).subset⟩
  have hcover := h.cover
  have hsettles := h.settles
  rw [hpaid, bills_append] at hcover hsettles
  refine ⟨fun id' hid' => h.assessable id' ?_, fun b hb => hcover b ?_, ?_⟩
  · rw [List.mem_singleton.mp hid']
    exact List.mem_cons_self
  · rw [List.mem_append]
    exact Or.inl hb
  · refine hsettles.of_append fun b hb => ?_
    have hlater : s.Sane later := hsane.subset fun id' hid' => List.mem_cons_of_mem id (hsub hid')
    exact (hlater.bill_funded hb).shares

/-- After the first round, the loop needs what the others need then. -/
theorem State.TickLeft.fits_cons (hnew : id ∉ rest) (h : s.TickLeft p now [id] s₁)
    (hfirst : s.TickFits p now [id]) :
    s.TickFits p now (id :: rest) ↔ s₁.TickFits p now rest := by
  have hrest : ∀ id' ∈ rest, s₁.loans[id']? = s.loans[id']? := by
    intro id' hid'
    refine h.others ?_
    rw [List.mem_singleton]
    rintro rfl
    exact hnew hid'
  obtain ⟨_, hbills⟩ := paid_cons hrest h.settled
  constructor
  · rintro ⟨hassessable, hcover, hsettles⟩
    rw [hbills] at hcover hsettles
    refine ⟨fun id' hid' l hl => ?_, fun b hb => hcover b (List.mem_append_right _ hb),
      h.settled.settles_append.mp hsettles⟩
    rw [hrest id' hid'] at hl
    exact hassessable id' (List.mem_cons_of_mem _ hid') l hl
  · rintro ⟨hassessable, hcover, hsettles⟩
    refine ⟨fun id' hid' l hl => ?_, ?_, ?_⟩
    · rcases List.mem_cons.mp hid' with rfl | hid'
      · exact hfirst.assessable id' (List.mem_singleton_self id') l hl
      · rw [← hrest id' hid'] at hl
        exact hassessable id' hid' l hl
    · rw [hbills]
      intro b hb
      rcases List.mem_append.mp hb with hb | hb
      · exact hfirst.cover b hb
      · exact hcover b hb
    · rw [hbills]
      exact h.settled.settles_append.mpr hsettles

theorem State.TickLeft.cons (hnew : id ∉ rest) (h : s.TickLeft p now [id] s₁)
    (h' : s₁.TickLeft p now rest s₂) : s.TickLeft p now (id :: rest) s₂ := by
  have hrest : ∀ id' ∈ rest, s₁.loans[id']? = s.loans[id']? := by
    intro id' hid'
    refine h.others ?_
    rw [List.mem_singleton]
    rintro rfl
    exact hnew hid'
  obtain ⟨hpaid, hbills⟩ := paid_cons hrest h.settled
  refine ⟨?_, ?_⟩
  · rw [hbills]
    exact h.settled.trans h'.settled
  · rw [hpaid]
    refine h.loans.comp h'.loans fun id' l l₁ l₂ hfirst hlater => ?_
    unfold Loan.Visited at hfirst hlater ⊢
    by_cases hid : id' = id
    · -- the loan of the first round is not visited again
      subst hid
      rw [if_neg fun hin => hnew hin.1] at hlater
      have hunpaid : id' ∉ s₁.paid p now rest := fun hin => hnew (mem_paid hin)
      simpa [hlater, hunpaid] using hfirst
    · have hspared : id' ∉ s.paid p now [id] := fun hin => hid (List.mem_singleton.mp (mem_paid hin))
      rw [if_neg fun hin => hid (List.mem_singleton.mp hin.1)] at hfirst
      subst hfirst
      simpa [hid, hspared] using hlater

/-- **The loop goes through exactly when all that it computes fits**, and this is what it leaves. -/
theorem tickLoans_iff (hnow : IsInt64 ctx.now) (hpos : price.xrpUSDE6 ≠ 0) (hnodup : ids.Nodup)
    (hprice : s.price = price) (hsane : s.Sane ids) :
    ((∃ s', ids.foldlM (tickLoan .wrapping ctx price) s = .ok s') ↔
      s.TickFits price.xrpUSDE6 ctx.now ids) ∧
    ∀ s', ids.foldlM (tickLoan .wrapping ctx price) s = .ok s' →
      s.TickLeft price.xrpUSDE6 ctx.now ids s' := by
  induction ids generalizing s with
  | nil =>
      have hfits : s.TickFits price.xrpUSDE6 ctx.now [] :=
        ⟨by simp, by simp [State.bills, State.paid], settles_nil s⟩
      refine ⟨⟨fun _ => hfits, fun _ => ⟨s, rfl⟩⟩, fun s' h => ?_⟩
      rw [← Except.ok.inj h]
      exact ⟨BillsSettled.of_loans rfl, Pointwise.refl fun _ _ _ => by simp [Loan.Visited]⟩
  | cons id rest ih =>
      rw [List.nodup_cons] at hnodup
      have hfirst : s.Sane [id] := hsane.subset (by simp)
      obtain ⟨hround, hroundLeft⟩ := tickLoan_iff hnow hprice hpos hfirst
      have hlater : ∀ s₁, tickLoan .wrapping ctx price s id = .ok s₁ →
          ((∃ s', rest.foldlM (tickLoan .wrapping ctx price) s₁ = .ok s') ↔
            s₁.TickFits price.xrpUSDE6 ctx.now rest) ∧
          ∀ s', rest.foldlM (tickLoan .wrapping ctx price) s₁ = .ok s' →
            s₁.TickLeft price.xrpUSDE6 ctx.now rest s' := by
        intro s₁ h₁
        have hleft := hroundLeft s₁ h₁
        refine ih hnodup.2 ?_ fun id' hid' l hl => ?_
        · rw [hleft.settled.frame]
          exact hprice
        · rw [hleft.others (by rintro hin; exact hnodup.1 (List.mem_singleton.mp hin ▸ hid'))] at hl
          exact hsane id' (List.mem_cons_of_mem id hid') l hl
      simp only [List.foldlM_cons, bind_eq_ok]
      constructor
      · constructor
        · rintro ⟨s', s₁, h₁, hrest⟩
          have hfits := (hlater s₁ h₁).1.mp ⟨s', hrest⟩
          exact ((hroundLeft s₁ h₁).fits_cons hnodup.1 (hround.mp ⟨s₁, h₁⟩)).mpr hfits
        · intro hfits
          obtain ⟨s₁, h₁⟩ := hround.mpr (hfits.head hsane)
          have hrest := ((hroundLeft s₁ h₁).fits_cons hnodup.1 (hfits.head hsane)).mp hfits
          obtain ⟨s', h'⟩ := (hlater s₁ h₁).1.mpr hrest
          exact ⟨s', s₁, h₁, h'⟩
      · rintro s' ⟨s₁, h₁, hrest⟩
        exact (hroundLeft s₁ h₁).cons hnodup.1 ((hlater s₁ h₁).2 s' hrest)

end Loop

/-! ### The tick -/

/-- The operations of a run take place at times that the clock can tell. -/
def ClockInRange (events : List Event) : Prop := ∀ t ∈ events.filterMap Event.time?, IsInt64 t

instance (events : List Event) : Decidable (ClockInRange events) :=
  inferInstanceAs (Decidable (∀ t ∈ events.filterMap Event.time?, IsInt64 t))

/-- What a tick is refused for before it looks at the loans. -/
structure State.Admits (s : State) (ctx : Context) (stored : Bool) (price : Price)
    (operationID : String) : Prop where
  usable : price.isUnusable ctx.requestedAt = false
  quiet : s.pendingAnchor = none
  fresh : operationID ∉ s.processed
  stored : stored = true

section Tick

variable {host : Host} {ctx : Context} {stored : Bool} {price : Price} {operationID : String}
  {s s' : State}

theorem sane_ledgerAfter (A : Arith) (host : Host) {events : List Event}
    (h : ClockInRange events) (ids : List String) : (ledgerAfter A host events).Sane ids := by
  have haccrued : AccruedAt IsInt64 (ledgerAfter A host events) :=
    accruedAt_ledgerAfter A host fun e he t ht => h t (List.mem_filterMap.mpr ⟨e, he, ht⟩)
  intro id _ l hl
  exact ⟨((wellformed_ledgerAfter A host events).loan id l hl).2.funded, haccrued id l hl⟩

/-- The last price plays no part in what a tick needs. -/
theorem tickFits_priced {p : UInt64} {now : Int} {ids : List String} :
    ({ s with price } : State).TickFits p now ids ↔ s.TickFits p now ids := by
  constructor
  · rintro ⟨hassessable, hcover, hmandate, hreserved, havailable, hreserve⟩
    exact ⟨hassessable, hcover, hmandate, hreserved, havailable, hreserve⟩
  · rintro ⟨hassessable, hcover, hmandate, hreserved, havailable, hreserve⟩
    exact ⟨hassessable, hcover, hmandate, hreserved, havailable, hreserve⟩

theorem price_ne_zero (h : price.isUnusable ctx.requestedAt = false) : price.xrpUSDE6 ≠ 0 := by
  intro h0
  simp [Price.isUnusable, h0] at h

theorem step_riskTick :
    step .wrapping host s (.operate ctx stored (.riskTick price operationID)) = .ok s' ↔
      s.Admits ctx stored price operationID ∧
      ∃ s₁, (ctx.range.order s.loans.keys).foldlM (tickLoan .wrapping ctx price)
          { s with price } = .ok s₁ ∧
        s' = anchored host .riskTick operationID s (s₁.markProcessed operationID) := by
  show (Operation.riskTick price operationID).apply .wrapping host ctx stored s = .ok s' ↔ _
  unfold Operation.apply mutate Operation.validate Operation.body riskTick
  simp only [bind_eq_ok, rejectIf_eq_ok]
  constructor
  · rintro ⟨_, husable, _, hquiet, next, ⟨_, hfresh, s₁, hloop, hnext⟩, _, hstored, hs'⟩
    obtain rfl := Except.ok.inj hnext
    refine ⟨⟨by simpa using husable, by simpa using hquiet, hfresh, by simpa using hstored⟩,
      s₁, hloop, (Except.ok.inj hs').symm⟩
  · rintro ⟨⟨husable, hquiet, hfresh, hstored⟩, s₁, hloop, rfl⟩
    exact ⟨(), by simp [husable], (), by simp [hquiet], _, ⟨(), hfresh, s₁, hloop, rfl⟩, (),
      by simp [hstored], rfl⟩

end Tick

/-- **A risk tick goes through exactly when all that it computes fits**: for every reachable state,
every valid price and every order of the loans. -/
theorem riskTick_commits_iff (host : Host) {events : List Event} {ctx : Context} {price : Price}
    {operationID : String} (hclock : ClockInRange events) (hnow : IsInt64 ctx.now)
    (hprice : price.isUnusable ctx.requestedAt = false)
    (hquiet : (ledgerAfter .wrapping host events).pendingAnchor = none)
    (hfresh : operationID ∉ (ledgerAfter .wrapping host events).processed) :
    (∃ s', step .wrapping host (ledgerAfter .wrapping host events)
      (.operate ctx true (.riskTick price operationID)) = .ok s') ↔
    (ledgerAfter .wrapping host events).TickFits price.xrpUSDE6 ctx.now
      (ctx.range.order (ledgerAfter .wrapping host events).loans.keys) := by
  generalize hs : ledgerAfter .wrapping host events = s at hquiet hfresh ⊢
  have hsane : ({ s with price } : State).Sane (ctx.range.order s.loans.keys) :=
    hs ▸ sane_ledgerAfter .wrapping host hclock _
  have hloop := (tickLoans_iff (s := { s with price }) hnow (price_ne_zero hprice)
    (keys_order_nodup ctx.range s) rfl hsane).1
  rw [tickFits_priced] at hloop
  simp only [step_riskTick, ← hloop]
  constructor
  · rintro ⟨s', _, s₁, h, _⟩
    exact ⟨s₁, h⟩
  · rintro ⟨s₁, h⟩
    exact ⟨_, ⟨hprice, hquiet, hfresh, rfl⟩, s₁, h, rfl⟩

/-- The slump of `crowded` goes through: both loans have their figures, and one bill is paid. -/
theorem riskTick_commits_slump :
    (ledgerAfter .wrapping sampleHost
      (settledCalls .wrapping sampleHost newState crowded)).TickFits 700000 1000 ["x", "y"] := by
  have hkeys : (ledgerAfter .wrapping sampleHost
      (settledCalls .wrapping sampleHost newState crowded)).loans.keys = ["x", "y"] := by
    unfold ledgerAfter
    rw [run_settledCalls]
    decide +kernel
  have hcommits : (step .wrapping sampleHost
      (ledgerAfter .wrapping sampleHost (settledCalls .wrapping sampleHost newState crowded))
      (sampleCall slump)).toBool = true := by
    unfold ledgerAfter
    rw [run_settledCalls]
    decide +kernel
  have htick : ∃ s', step .wrapping sampleHost (ledgerAfter .wrapping sampleHost
      (settledCalls .wrapping sampleHost newState crowded)) (sampleCall slump) = .ok s' := by
    generalize step .wrapping sampleHost _ _ = answer at hcommits
    cases answer with
    | error e => cases hcommits
    | ok s' => exact ⟨s', rfl⟩
  have hfits := (@riskTick_commits_iff sampleHost (settledCalls .wrapping sampleHost newState crowded)
    { requestedAt := 1000, now := 1000, range := RangeOrder.sorted }
    { xrpUSDE6 := 700000, updatedAt := 1000 } "t1" (by decide +kernel) (by decide) (by decide)
    (by unfold ledgerAfter; rw [run_settledCalls]; decide +kernel)
    (by unfold ledgerAfter; rw [run_settledCalls]; decide +kernel)).mp htick
  rwa [hkeys] at hfits

/-- At the highest price a feed can report, the collateral of either loan of `crowded` is worth more
than a word holds: the tick fails, and no loan is accrued. -/
theorem crowded_blocked :
    Price.isUnusable { xrpUSDE6 := 0xFFFFFFFFFFFFFFFF, updatedAt := 1000 } 1000 = false ∧
    (ledgerAfter .wrapping sampleHost
      (settledCalls .wrapping sampleHost newState crowded)).pendingAnchor = none ∧
    "t1" ∉ (ledgerAfter .wrapping sampleHost
      (settledCalls .wrapping sampleHost newState crowded)).processed ∧
    (step .wrapping sampleHost
      (ledgerAfter .wrapping sampleHost (settledCalls .wrapping sampleHost newState crowded))
      (sampleCall (.riskTick { xrpUSDE6 := 0xFFFFFFFFFFFFFFFF, updatedAt := 1000 } "t1"))).map
        (fun _ => ()) = .error .arithmeticOverflow := by
  unfold ledgerAfter
  rw [run_settledCalls]
  refine ⟨by decide, by decide +kernel, by decide +kernel, by decide +kernel⟩

end QuietLine
