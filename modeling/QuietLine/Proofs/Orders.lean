/-
What the order of the loans decides.

`RiskTick` visits the loans in whatever order the runtime ranges over the map.  The figures of a loan
are its own, and what the liquidations leave is told by the bills that were paid; so the order
decides which bills are paid, and nothing else.  It decides that exactly when the backstop cannot
cover all bills that it could pay one by one.
-/
import QuietLine.Proofs.Rounds

namespace QuietLine

open Outcome MapSum MapRel
open Std (ExtTreeMap)

/-- Whatever the order of the loans, the tick fails, or leads to the same state. -/
def TickOrderFree (host : Host) (s : State) (ctx : Context) (stored : Bool) (price : Price)
    (operationID : String) : Prop :=
  ∀ r r' : RangeOrder,
    (step .wrapping host s (.operate { ctx with range := r } stored
      (.riskTick price operationID))).toOption =
    (step .wrapping host s (.operate { ctx with range := r' } stored
      (.riskTick price operationID))).toOption

/-- The loans that the backstop could pay off, each taken alone. -/
def State.payable (s : State) (price : UInt64) (now : Int) (ids : List String) : List String :=
  ids.filter (Budget.payable (s.cost price now) s.backstopUSDT0.toNat)

/-- The backstop covers them all. -/
def State.CoversAll (s : State) (price : UInt64) (now : Int) : Prop :=
  Budget.total (s.cost price now) (s.payable price now s.loans.keys) ≤ s.backstopUSDT0.toNat

/-- The order that puts the key `id` first. -/
def RangeOrder.leading (id : String) : RangeOrder where
  order keys := if id ∈ keys then id :: keys.erase id else keys
  perm keys := by
    by_cases h : id ∈ keys
    · rw [if_pos h]
      exact (List.perm_cons_erase h).symm
    · rw [if_neg h]

section Orders

variable {s s₀ s₁ s₂ : State} {p : UInt64} {now : Int} {ids ids' : List String}

/-- A backstop that covers all of them pays all of them, in every order. -/
theorem paid_of_coversAll (h : s.CoversAll p now) (hperm : ids.Perm s.loans.keys) :
    s.paid p now ids = s.payable p now ids := by
  refine Budget.pay_eq_filter ?_
  have htotal : Budget.total (s.cost p now) (s.payable p now ids) =
      Budget.total (s.cost p now) (s.payable p now s.loans.keys) :=
    ((hperm.filter _).map _).sum_eq
  exact htotal ▸ h

theorem bills_perm (h : ids.Perm ids') : (s.bills p now ids).Perm (s.bills p now ids') :=
  h.filterMap _

/-- Where the same loans are paid, the loops need the same. -/
theorem State.TickFits.of_perm (h : s.TickFits p now ids) (hperm : ids.Perm ids')
    (hpaid : (s.paid p now ids).Perm (s.paid p now ids')) : s.TickFits p now ids' := by
  have hbills : (s.bills p now (s.paid p now ids)).Perm (s.bills p now (s.paid p now ids')) :=
    bills_perm hpaid
  exact ⟨fun id hid => h.assessable id (hperm.mem_iff.mpr hid),
    fun b hb => h.cover b (hbills.mem_iff.mpr hb), h.settles.of_perm hbills⟩

/-- A visited loan is told by what was visited and what was paid. -/
theorem Loan.Visited.eq_of_perm {paid paid' : List String} {id : String} {l l₁ l₂ : Loan}
    (h : l.Visited p now ids paid id l₁) (h' : l.Visited p now ids' paid' id l₂)
    (hids : ids.Perm ids') (hpaid : paid.Perm paid') : l₁ = l₂ := by
  unfold Loan.Visited at h h'
  simp only [hids.mem_iff] at h
  by_cases hvisited : id ∈ ids' ∧ l.isOpen = true
  · rw [if_pos hvisited] at h h'
    obtain ⟨l₀, hassess, hl₁⟩ := h
    obtain ⟨l₀', hassess', hl₂⟩ := h'
    obtain rfl : l₀ = l₀' := Except.ok.inj (hassess.symm.trans hassess')
    simp only [hpaid.mem_iff] at hl₁
    rw [hl₁, hl₂]
  · rw [if_neg hvisited] at h h'
    rw [h, h']

/-- Where the same loans are paid, the loops leave the same. -/
theorem State.TickLeft.eq_of_perm (h : s.TickLeft p now ids s₁) (h' : s.TickLeft p now ids' s₂)
    (hids : ids.Perm ids') (hpaid : (s.paid p now ids).Perm (s.paid p now ids')) : s₁ = s₂ := by
  refine h.settled.eq_of_perm h'.settled (bills_perm hpaid) (ExtTreeMap.ext_getElem? fun id => ?_)
  cases hl : s.loans[id]? with
  | none => rw [h.loans.get_none hl, h'.loans.get_none hl]
  | some l =>
      obtain ⟨l₁, hl₁, hfirst⟩ := h.loans.get hl
      obtain ⟨l₂, hl₂, hsecond⟩ := h'.loans.get hl
      rw [hl₁, hl₂, hfirst.eq_of_perm hsecond hids hpaid]

/-- Which loans are paid can be read off the loans. -/
theorem State.TickLeft.liquidated_iff (h : s.TickLeft p now ids s₁) {id : String} {b : Bill}
    (hid : id ∈ ids) (hbill : s.bill p now id = some b) :
    (∃ l, s₁.loans[id]? = some l ∧ l.isOpen = false) ↔ id ∈ s.paid p now ids := by
  obtain ⟨l, hl, hopen, _⟩ := bill_eq_some.mp hbill
  obtain ⟨l', hl', hvisited⟩ := h.loans.get hl
  unfold Loan.Visited at hvisited
  rw [if_pos ⟨hid, hopen⟩] at hvisited
  obtain ⟨l₀, hassess, heq⟩ := hvisited
  obtain ⟨_, hstays⟩ := assess_sameTerms hassess
  constructor
  · rintro ⟨l'', hl'', hclosed⟩
    rw [hl'] at hl''
    obtain rfl := Option.some.inj hl''
    by_contra hunpaid
    rw [heq, if_neg hunpaid, hstays] at hclosed
    cases hclosed
  · intro hpaid
    refine ⟨l', hl', ?_⟩
    rw [heq, if_pos hpaid]
    simp [Loan.isOpen]

end Orders

/-! ### Two orders -/

section Agreement

variable {host : Host} {ctx : Context} {stored : Bool} {price : Price} {operationID : String}
  {s : State}

theorem toOption_eq {ε α : Type} {a b : Except ε α}
    (hiff : (∃ x, a = .ok x) ↔ ∃ y, b = .ok y)
    (heq : ∀ x y, a = .ok x → b = .ok y → x = y) : a.toOption = b.toOption := by
  cases a with
  | error e =>
      cases b with
      | error e' => rfl
      | ok y => obtain ⟨x, hx⟩ := hiff.mpr ⟨y, rfl⟩; cases hx
  | ok x =>
      obtain ⟨y, rfl⟩ := hiff.mp ⟨x, rfl⟩
      rw [heq x y rfl rfl]

/-- One tick, in one order: when it goes through, and what it leaves. -/
theorem step_riskTick_iff (hnow : IsInt64 ctx.now) (hadmits : s.Admits ctx stored price operationID)
    (hsane : ∀ ids, s.Sane ids) (r : RangeOrder) :
    ((∃ s', step .wrapping host s (.operate { ctx with range := r } stored
      (.riskTick price operationID)) = .ok s') ↔
        s.TickFits price.xrpUSDE6 ctx.now (r.order s.loans.keys)) ∧
    ∀ s', step .wrapping host s (.operate { ctx with range := r } stored
      (.riskTick price operationID)) = .ok s' →
      ∃ s₁, ({ s with price } : State).TickLeft price.xrpUSDE6 ctx.now (r.order s.loans.keys) s₁ ∧
        s' = anchored host .riskTick operationID s (s₁.markProcessed operationID) := by
  have hadmits' : s.Admits { ctx with range := r } stored price operationID :=
    ⟨hadmits.usable, hadmits.quiet, hadmits.fresh, hadmits.stored⟩
  obtain ⟨hfits, hleft⟩ := @tickLoans_iff { ctx with range := r } price { s with price }
    (r.order s.loans.keys) hnow (price_ne_zero hadmits.usable) (keys_order_nodup r s) rfl
    fun id hid => hsane _ id hid
  rw [tickFits_priced] at hfits
  constructor
  · rw [← hfits]
    simp only [step_riskTick]
    constructor
    · rintro ⟨s', _, s₁, h, _⟩
      exact ⟨s₁, h⟩
    · rintro ⟨s₁, h⟩
      exact ⟨_, hadmits', s₁, h, rfl⟩
  · intro s' h
    obtain ⟨_, s₁, hloop, hs'⟩ := step_riskTick.mp h
    exact ⟨s₁, hleft s₁ hloop, hs'⟩

/-- Orders in which the same loans are paid agree. -/
theorem orders_agree (hnow : IsInt64 ctx.now) (hadmits : s.Admits ctx stored price operationID)
    (hsane : ∀ ids, s.Sane ids) {r r' : RangeOrder}
    (hpaid : (s.paid price.xrpUSDE6 ctx.now (r.order s.loans.keys)).Perm
      (s.paid price.xrpUSDE6 ctx.now (r'.order s.loans.keys))) :
    (step .wrapping host s (.operate { ctx with range := r } stored
      (.riskTick price operationID))).toOption =
    (step .wrapping host s (.operate { ctx with range := r' } stored
      (.riskTick price operationID))).toOption := by
  have hids : (r.order s.loans.keys).Perm (r'.order s.loans.keys) :=
    (r.perm _).trans (r'.perm _).symm
  obtain ⟨hiff, hleaves⟩ := @step_riskTick_iff host ctx stored price operationID s hnow hadmits
    hsane r
  obtain ⟨hiff', hleaves'⟩ := @step_riskTick_iff host ctx stored price operationID s hnow hadmits
    hsane r'
  refine toOption_eq ?_ fun s₁ s₂ h h' => ?_
  · rw [hiff, hiff']
    exact ⟨fun h => h.of_perm hids hpaid, fun h => h.of_perm hids.symm hpaid.symm⟩
  · obtain ⟨t, hleft, rfl⟩ := hleaves s₁ h
    obtain ⟨t', hleft', rfl⟩ := hleaves' s₂ h'
    rw [hleft.eq_of_perm hleft' hids hpaid]

/-- Where the backstop does not cover all that it could pay, a tick that goes through leaves a loan
that another order liquidates. -/
theorem orders_differ (hnow : IsInt64 ctx.now) (hadmits : s.Admits ctx stored price operationID)
    (hsane : ∀ ids, s.Sane ids) (hshort : ¬ s.CoversAll price.xrpUSDE6 ctx.now) {r : RangeOrder}
    (hfits : s.TickFits price.xrpUSDE6 ctx.now (r.order s.loans.keys)) :
    ¬ TickOrderFree host s ctx stored price operationID := by
  intro hfree
  have hperm := r.perm s.loans.keys
  obtain ⟨id, hid, hpayable, hunpaid⟩ : ∃ id ∈ r.order s.loans.keys,
      Budget.payable (s.cost price.xrpUSDE6 ctx.now) s.backstopUSDT0.toNat id = true ∧
      id ∉ s.paid price.xrpUSDE6 ctx.now (r.order s.loans.keys) := by
    refine Budget.exists_unpaid (keys_order_nodup r s) ?_
    rw [show Budget.total _ _ = _ from ((hperm.filter _).map _).sum_eq]
    exact Nat.not_le.mp hshort
  have hkey : id ∈ s.loans.keys := hperm.mem_iff.mp hid
  have hpaid : id ∈ s.paid price.xrpUSDE6 ctx.now
      ((RangeOrder.leading id).order s.loans.keys) := by
    show id ∈ s.paid price.xrpUSDE6 ctx.now
      (if id ∈ s.loans.keys then id :: s.loans.keys.erase id else s.loans.keys)
    rw [if_pos hkey]
    exact Budget.mem_pay_first hpayable _
  obtain ⟨b, hbill⟩ : ∃ b, s.bill price.xrpUSDE6 ctx.now id = some b := by
    obtain ⟨c, hcost, _⟩ := Budget.payable_iff.mp hpayable
    obtain ⟨b, hbill, _⟩ := Option.map_eq_some_iff.mp hcost
    exact ⟨b, hbill⟩
  obtain ⟨hiff, hleaves⟩ := @step_riskTick_iff host ctx stored price operationID s hnow hadmits
    hsane r
  obtain ⟨_, hleaves'⟩ := @step_riskTick_iff host ctx stored price operationID s hnow hadmits
    hsane (RangeOrder.leading id)
  obtain ⟨s', hs'⟩ := hiff.mpr hfits
  have hsame := hfree r (RangeOrder.leading id)
  rw [hs'] at hsame
  have hs'' : step .wrapping host s (.operate { ctx with range := RangeOrder.leading id } stored
      (.riskTick price operationID)) = .ok s' := by
    generalize step .wrapping host s _ = answer at hsame
    cases answer with
    | error e => cases hsame
    | ok t => rw [Option.some.inj hsame]
  obtain ⟨t, hleft, heq⟩ := hleaves s' hs'
  obtain ⟨t', hleft', heq'⟩ := hleaves' s' hs''
  have hloans : t.loans = t'.loans := by
    have hfirst : s'.loans = t.loans := by rw [heq]; rfl
    have hsecond : s'.loans = t'.loans := by rw [heq']; rfl
    exact hfirst.symm.trans hsecond
  have hlead : id ∈ (RangeOrder.leading id).order s.loans.keys :=
    ((RangeOrder.leading id).perm _).mem_iff.mpr hkey
  have hclosed := (hleft'.liquidated_iff hlead hbill).mpr hpaid
  rw [← hloans] at hclosed
  exact hunpaid ((hleft.liquidated_iff hid hbill).mp hclosed)

end Agreement

/-- **The order of the loans does not matter exactly when the backstop covers all that it could pay**,
or no order goes through: for every reachable state. -/
theorem riskTick_order_free_iff (host : Host) {events : List Event} {ctx : Context} (stored : Bool)
    (price : Price) (operationID : String) (hclock : ClockInRange events)
    (hnow : IsInt64 ctx.now) :
    TickOrderFree host (ledgerAfter .wrapping host events) ctx stored price operationID ↔
      (ledgerAfter .wrapping host events).CoversAll price.xrpUSDE6 ctx.now ∨
      ¬ (ledgerAfter .wrapping host events).Admits ctx stored price operationID ∨
      ∀ r : RangeOrder, ¬ (ledgerAfter .wrapping host events).TickFits price.xrpUSDE6 ctx.now
        (r.order (ledgerAfter .wrapping host events).loans.keys) := by
  have hsane := @sane_ledgerAfter .wrapping host events hclock
  generalize ledgerAfter .wrapping host events = s at hsane
  by_cases hadmits : s.Admits ctx stored price operationID
  · constructor
    · intro hfree
      by_cases hcovers : s.CoversAll price.xrpUSDE6 ctx.now
      · exact Or.inl hcovers
      · exact Or.inr (Or.inr fun r hfits => orders_differ hnow hadmits hsane hcovers hfits hfree)
    · rintro (hcovers | hrefused | hfails)
      · intro r r'
        refine orders_agree hnow hadmits hsane ?_
        rw [paid_of_coversAll hcovers (r.perm _), paid_of_coversAll hcovers (r'.perm _)]
        exact ((r.perm _).trans (r'.perm _).symm).filter _
      · exact absurd hadmits hrefused
      · intro r r'
        have hiff := fun r => (@step_riskTick_iff host ctx stored price operationID s hnow hadmits
          hsane r).1
        refine toOption_eq ?_ fun s₁ _ h _ => absurd ((hiff r).mp ⟨s₁, h⟩) (hfails r)
        rw [hiff, hiff]
        exact iff_of_false (hfails r) (hfails r')
  · refine iff_of_true (fun r r' => ?_) (Or.inr (Or.inl hadmits))
    have hrefused : ∀ (r : RangeOrder) (s' : State), step .wrapping host s
        (.operate { ctx with range := r } stored (.riskTick price operationID)) ≠ .ok s' := by
      intro r s' h
      obtain ⟨⟨husable, hquiet, hfresh, hstored⟩, _⟩ := step_riskTick.mp h
      exact hadmits ⟨husable, hquiet, hfresh, hstored⟩
    refine toOption_eq (iff_of_false ?_ ?_) fun s₁ _ h _ => absurd h (hrefused r s₁)
    · rintro ⟨s₁, h⟩
      exact hrefused r s₁ h
    · rintro ⟨s₁, h⟩
      exact hrefused r' s₁ h

/-- With a second seeding the backstop of `crowded` covers both bills of the slump. -/
theorem riskTick_order_free_seeded :
    TickOrderFree sampleHost (ledgerAfter .wrapping sampleHost
      (settledCalls .wrapping sampleHost newState (crowded ++ [.seedBackstop 1500000 "s2"])))
      { requestedAt := 1000, now := 1000, range := RangeOrder.sorted } true
      { xrpUSDE6 := 700000, updatedAt := 1000 } "t1" := by
  refine (riskTick_order_free_iff sampleHost true _ "t1" (by decide +kernel) (by decide)).mpr
    (Or.inl ?_)
  unfold ledgerAfter State.CoversAll
  rw [run_settledCalls]
  decide +kernel

/-- Without it, the loan that is visited first is the one that is liquidated. -/
theorem crowded_orders_differ :
    ¬ TickOrderFree sampleHost
      (ledgerAfter .wrapping sampleHost (settledCalls .wrapping sampleHost newState crowded))
      { requestedAt := 1000, now := 1000, range := RangeOrder.sorted } true
      { xrpUSDE6 := 700000, updatedAt := 1000 } "t1" := by
  intro hfree
  have hsame := congrArg (Option.map fun s : State => s.loans["x"]?.map Loan.status)
    (hfree (RangeOrder.leading "x") (RangeOrder.leading "y"))
  unfold ledgerAfter at hsame
  rw [run_settledCalls] at hsame
  revert hsame
  decide +kernel

end QuietLine
