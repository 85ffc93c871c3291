/-
Matching is maximal and cheapest (`quote`).

`Admitted` is what `quote` asks of a request before it looks at any mandate.  After that
it is a greedy filling of the request from the eligible mandates by rate, so what it
takes and what that costs are the library's `Greedy.fill`; the tranches are the part of
the filling that is not nothing.

A mandate is on the books at a rate `SetMandate` admits.  The comparison with the
borrower's maximum would wrap at the end of `uint32`, which such a rate is far from.
-/
import QuietLine.Library.Greedy
import QuietLine.Proofs.Solvency

namespace QuietLine

open Outcome MapSum MapRel

/-! ### What is asked of a request -/

/-- The request passes every check before the matching. -/
structure Admitted (s : State) (req : QuoteRequest) (now : Int) : Prop where
  amount : req.amount ≠ 0
  collateral : req.collateralFXRP ≠ 0
  term : termBit req.termDays ≠ 0
  rate : ¬ req.maxAPRBPS < 650
  unexpired : now < req.expiresAt
  price : s.price.xrpUSDE6 ≠ 0
  fresh : int64 (now - s.price.updatedAt) ≤ 300
  fits : req.collateralFXRP.toNat * s.price.xrpUSDE6.toNat / scale.toNat < 2 ^ 64
  value : req.collateralFXRP.toNat * s.price.xrpUSDE6.toNat / scale.toNat ≠ 0
  ltv : req.amount.toNat * bps.toNat /
    (req.collateralFXRP.toNat * s.price.xrpUSDE6.toNat / scale.toNat) ≤ 5000

/-- The end of `quote`: what it makes of a filling. -/
def quoteTerms (req : QuoteRequest) (priceE6 : UInt64) (filled : List Tranche × UInt64) :
    Except LedgerError Quote := do
  let funded := req.amount - filled.2
  rejectIf (funded = 0) .insufficientLiquidity
  let lenderAPR ← weightedAverage filled.1 funded
  rejectIf (lenderAPR > 0xFFFFFFFF - 50) .arithmeticOverflow
  let quotedCollateral ← mulDiv [req.collateralFXRP, funded] req.amount true
  return {
    requestID := req.id
    borrower := toLower req.borrower
    amount := funded
    requestedAmount := req.amount
    termDays := req.termDays
    collateralFXRP := quotedCollateral
    requestedCollateralFXRP := req.collateralFXRP
    isPartial := funded < req.amount
    lenderAPRBPS := lenderAPR
    borrowerAPRBPS := lenderAPR + 50
    maxAPRBPS := req.maxAPRBPS
    tranches := filled.1
    expiresAt := req.expiresAt
    priceE6 }

section Admission

variable {host : Host} {range : RangeOrder} {s : State} {req : QuoteRequest} {now : Int}

/-- An admitted request is answered from the matching alone. -/
theorem quote_admitted (h : Admitted s req now) :
    quote host range s req now = quoteTerms req s.price.xrpUSDE6
      (fillTranches (eligibleMandates host range s req) req.amount) := by
  obtain ⟨value, hvalue⟩ : ∃ value,
      mulDiv [req.collateralFXRP, s.price.xrpUSDE6] scale false = .ok value :=
    ⟨_, mulDiv_ok (by decide) (by rw [prod_two]; exact h.fits)⟩
  have hvalueNat := (mulDiv_eq_ok hvalue).2
  rw [prod_two] at hvalueNat
  have hpos : value ≠ 0 := fun h0 => h.value (by rw [← hvalueNat, h0]; rfl)
  have hratio := h.ltv
  rw [← hvalueNat] at hratio
  obtain ⟨ltv, hltv⟩ : ∃ ltv, mulDiv [req.amount, bps] value false = .ok ltv :=
    ⟨_, mulDiv_ok hpos (by rw [prod_two]; omega)⟩
  have hlow : ¬ ltv > 5000 := by
    rw [gt_iff_lt, UInt64.lt_iff_toNat_lt, (mulDiv_eq_ok hltv).2, prod_two]
    exact Nat.not_lt.mpr hratio
  have hinvalid : ¬ (req.amount = 0 ∨ req.collateralFXRP = 0 ∨ termBit req.termDays = 0 ∨
      req.maxAPRBPS < 650 ∨ req.expiresAt ≤ now) := by
    have := h.unexpired
    simp only [h.amount, h.collateral, h.term, h.rate, false_or]
    omega
  have hstale : ¬ (s.price.xrpUSDE6 = 0 ∨ int64 (now - s.price.updatedAt) > 300) := by
    have := h.fresh
    simp only [h.price, false_or]
    omega
  unfold quote
  rw [rejectIf_of_not hinvalid, ok_bind, rejectIf_of_not hstale, ok_bind, hvalue, ok_bind, hltv,
    ok_bind, rejectIf_of_not (not_or.mpr ⟨hpos, hlow⟩), ok_bind]
  rfl

/-- Any other is refused for what it is. -/
theorem admitted_of_quote : Post (quote host range s req now) (fun _ => Admitted s req now)
    fun e => e = .insufficientLiquidity → Admitted s req now := by
  unfold quote
  refine Post.rejectIf (by simp) fun hvalid => ?_
  refine Post.rejectIf (by simp) fun hprice => ?_
  refine Post.bind (R := fun value => mulDiv [req.collateralFXRP, s.price.xrpUSDE6] scale false =
    .ok value) (Post.of_forall (fun _ h => h) fun e he => ?_) fun value hvalue => ?_
  · rcases mulDivBy_error he with rfl | rfl <;> simp
  refine Post.bind (R := fun ltv => mulDiv [req.amount, bps] value false = .ok ltv)
    (Post.of_forall (fun _ h => h) fun e he => ?_) fun ltv hltv => ?_
  · rcases mulDivBy_error he with rfl | rfl <;> simp
  refine Post.rejectIf (by simp) fun hlow => ?_
  have hvalueNat := (mulDiv_eq_ok hvalue).2
  have hltvNat := (mulDiv_eq_ok hltv).2
  rw [prod_two] at hvalueNat hltvNat
  obtain ⟨hpos, hlow⟩ := not_or.mp hlow
  have hadmitted : Admitted s req now := by
    simp only [not_or] at hvalid hprice
    obtain ⟨hamount, hcollateral, hterm, hrate, hexpires⟩ := hvalid
    refine ⟨hamount, hcollateral, hterm, hrate, by omega, hprice.1, by omega, ?_, ?_, ?_⟩
    · rw [← hvalueNat]
      exact value.toNat_lt
    · rw [← hvalueNat]
      exact (toNat_pos_of_ne_zero hpos).ne'
    · rw [← hvalueNat, ← hltvNat]
      exact UInt64.le_iff_toNat_le.mp (UInt64.not_lt.mp hlow)
  exact Post.of_forall (fun _ _ => hadmitted) fun _ _ _ => hadmitted

theorem admitted_of_ok {q : Quote} (h : quote host range s req now = .ok q) :
    Admitted s req now :=
  admitted_of_quote.of_ok h

end Admission

/-! ### The mandates on the books -/

/-- What `min(Available, PerBorrowerCap)` comes to. -/
def Mandate.offer (m : Mandate) : Nat := min m.available.toNat m.perBorrowerCap.toNat

/-- The mandate is active, allows the term, and is within the borrower's maximum with the spread
added. -/
def Mandate.Suits (m : Mandate) (req : QuoteRequest) : Prop :=
  m.active = true ∧ m.termMask &&& termBit req.termDays ≠ 0 ∧
    m.minAPRBPS.toNat + 50 ≤ req.maxAPRBPS.toNat

instance (m : Mandate) (req : QuoteRequest) : Decidable (m.Suits req) :=
  inferInstanceAs (Decidable (_ ∧ _ ∧ _))

/-- Every mandate is filed under its own id, at a rate that `SetMandate` admits. -/
structure Listed (s : State) : Prop where
  id : ∀ (id : String) (m : Mandate), s.mandates[id]? = some m → m.id = id
  rate : ∀ (id : String) (m : Mandate), s.mandates[id]? = some m → m.minAPRBPS.toNat ≤ 2000

section Books

variable {A : Arith} {host : Host} {ctx : Context} {s s' : State} {id : String}

/-- The same offers are filed under the same ids. -/
abbrev SameOffers (s s' : State) : Prop :=
  Pointwise (fun _ m m' => m.SameOffer m') s.mandates s'.mandates

theorem SameOffers.refl (s : State) : SameOffers s s :=
  Pointwise.refl fun _ m _ => Mandate.SameOffer.refl m

theorem SameOffers.trans {s₁ : State} (h : SameOffers s s₁) (h' : SameOffers s₁ s') :
    SameOffers s s' :=
  h.comp h' fun _ _ _ _ h h' => h.trans h'

theorem tickLoan_offers {price : Price} (h : tickLoan A ctx price s id = .ok s') :
    SameOffers s s' := by
  rcases tickLoan_ok h with rfl | ⟨l, l₁, _, _, _, hopen₁, rfl | ⟨_, hliq⟩⟩
  · exact SameOffers.refl _
  · exact SameOffers.refl _
  · have hl₁ : (s.putLoan id l₁).loans[id]? = some l₁ := by rw [putLoan_get, if_pos rfl]
    exact (liquidateInState_closing hl₁ hopen₁ hliq).mandates

/-- Only `SetMandate` adds an offer, at the rate it was given. -/
theorem body_offers {op : Operation} (h : op.body A host ctx s = .ok s') :
    (∃ owner id amount minAPR termMask cap n, ∃ m : Mandate,
      op = .setMandate owner id amount minAPR termMask cap n ∧ m.id = id ∧
        m.minAPRBPS = minAPR ∧ s'.mandates = s.mandates.insert id m) ∨ SameOffers s s' := by
  cases op with
  | openAccount owner id nonce => exact Or.inr (openAccount_quiet h).mandates
  | deposit owner asset amount id =>
      obtain ⟨asset', _, h⟩ := bind_eq_ok.mp h
      exact Or.inr (deposit_quiet h).mandates
  | setMandate owner id amount minAPR termMask cap nonce =>
      obtain ⟨_, _, bal', _, _, rfl⟩ := setMandate_ok h
      exact Or.inl ⟨owner, id, amount, minAPR, termMask, cap, nonce, _, rfl, rfl, rfl, rfl⟩
  | cancelMandate owner id nonce => exact Or.inr (cancelMandate_quiet h).mandates
  | acceptQuote q loanID nonce observed =>
      obtain ⟨l, hl⟩ := acceptQuote_opening h
      exact Or.inr hl.mandates
  | riskTick price id =>
      obtain ⟨_, s₁, hloop, rfl⟩ := riskTick_ok h
      have hticked : SameOffers { s with price } s₁ :=
        foldlM_ok (R := fun _ => SameOffers) SameOffers.refl
          (fun _ _ _ _ _ hfirst hrest => (tickLoan_offers hfirst).trans hrest) hloop
      exact Or.inr hticked
  | repay owner amount id nonce =>
      obtain ⟨l, hl⟩ := repay_closing h
      exact Or.inr hl.mandates
  | liquidate loanID id =>
      obtain ⟨_, l, s₁, hl, hstatus, hliq, rfl⟩ := liquidate_ok h
      exact Or.inr (liquidateInState_closing hl (by simp [Loan.isOpen, hstatus]) hliq).mandates
  | seedBackstop amount id => exact Or.inr (seedBackstop_quiet h).mandates
  | withdraw owner asset amount id nonce =>
      obtain ⟨asset', _, h⟩ := bind_eq_ok.mp h
      exact Or.inr (withdraw_quiet h).mandates
  | withdrawFromMandate owner mandateID amount id nonce =>
      exact Or.inr (withdrawFromMandate_quiet h).mandates

theorem Listed.offers (h : Listed s) (hsame : SameOffers s s') : Listed s' := by
  refine ⟨fun id m' hm' => ?_, fun id m' hm' => ?_⟩
  · obtain ⟨m, hm, hoffer⟩ := hsame.get' hm'
    rw [hoffer.id]
    exact h.id id m hm
  · obtain ⟨m, hm, hoffer⟩ := hsame.get' hm'
    rw [hoffer.minAPRBPS]
    exact h.rate id m hm

theorem Listed.observed (h : Listed s) (price : Price) : Listed { s with price } :=
  ⟨h.id, h.rate⟩

theorem listed_step (s : State) (e : Event) (s' : State) (h : Listed s)
    (hstep : step A host s e = .ok s') : Listed s' := by
  cases e with
  | confirm sequence root stored =>
      obtain rfl := confirmAnchor_ok hstep
      exact ⟨h.id, h.rate⟩
  | operate ctx stored op =>
      obtain ⟨_, hvalid, next, hbody, rfl⟩ := Operation.apply_ok hstep
      rcases body_offers hbody with
        ⟨owner, id, amount, minAPR, termMask, cap, n, m, rfl, hid, hrate, hmandates⟩ | hsame
      · have hmax : minAPR.toNat ≤ 2000 := by
          simp only [Operation.validate, rejectIf_eq_ok, not_or] at hvalid
          exact UInt32.le_iff_toNat_le.mp (UInt32.not_lt.mp hvalid.2.2.1)
        have hget : ∀ key : String,
            next.mandates[key]? = if id = key then some m else s.mandates[key]? := by
          intro key
          rw [hmandates, getElem?_insert_eq]
        have hlisted : ∀ (key : String) (m' : Mandate), next.mandates[key]? = some m' →
            m'.id = key ∧ m'.minAPRBPS.toNat ≤ 2000 := by
          intro key m' hm'
          rw [hget] at hm'
          by_cases hkey : id = key
          · rw [if_pos hkey, Option.some.injEq] at hm'
            rw [← hm']
            exact ⟨hid.trans hkey, hrate ▸ hmax⟩
          · rw [if_neg hkey] at hm'
            exact ⟨h.id key m' hm', h.rate key m' hm'⟩
        exact ⟨fun key m' hm' => (hlisted key m' hm').1, fun key m' hm' => (hlisted key m' hm').2⟩
      · exact ⟨(h.offers hsame).id, (h.offers hsame).rate⟩

/-- **Every reachable state lists its mandates.** -/
theorem listed_ledgerAfter (A : Arith) (host : Host) (events : List Event) :
    Listed (ledgerAfter A host events) :=
  Machine.invariant listed_step
    ⟨fun _ _ h => by simp [newState] at h, fun _ _ h => by simp [newState] at h⟩ events

end Books

/-! ### The filling -/

/-- A round of the source takes what the library's does. -/
theorem take_eq_min (m : Mandate) (remaining : UInt64) :
    (if (if m.available > m.perBorrowerCap then m.perBorrowerCap else m.available) > remaining then
      remaining else if m.available > m.perBorrowerCap then m.perBorrowerCap
      else m.available).toNat = min m.offer remaining.toNat := by
  unfold Mandate.offer
  simp only [gt_iff_lt, UInt64.lt_iff_toNat_lt]
  split <;> split <;> omega

/-- The tranches are the part of the filling that is not nothing, at the mandates' rates. -/
theorem fillTranches_fill (ms : List Mandate) (remaining : UInt64) (g : UInt32 → Nat) :
    ((fillTranches ms remaining).1.map fun t => t.principal.toNat * g t.aprBPS).sum =
      Greedy.cost (fun m => g m.minAPRBPS) (Greedy.fill Mandate.offer ms remaining.toNat) ∧
    (fillTranches ms remaining).2.toNat =
      remaining.toNat - Greedy.amount (Greedy.fill Mandate.offer ms remaining.toNat) := by
  induction ms generalizing remaining with
  | nil => simp [fillTranches]
  | cons m rest ih =>
      have htake := take_eq_min m remaining
      unfold fillTranches
      dsimp only
      generalize (if (if m.available > m.perBorrowerCap then m.perBorrowerCap else m.available) >
        remaining then remaining else if m.available > m.perBorrowerCap then m.perBorrowerCap
        else m.available) = take at htake
      have hle : take ≤ remaining := UInt64.le_iff_toNat_le.mpr (by omega)
      have hleft := UInt64.toNat_sub_of_le _ _ hle
      simp only [Greedy.fill_cons, Greedy.cost_cons, Greedy.amount_cons, ← htake]
      by_cases hzero : take = 0
      · obtain ⟨hcost, hrest⟩ := ih remaining
        simp [hzero, hcost, hrest]
      · rw [if_neg hzero]
        by_cases hmet : remaining - take = 0
        · have hnone : remaining.toNat - take.toNat = 0 := by
            rw [← hleft, hmet]
            rfl
          have htail : ∀ t ∈ Greedy.fill Mandate.offer rest 0, t.2 = 0 :=
            fun t ht => Greedy.snd_eq_zero ht
          rw [if_pos hmet, hnone, Greedy.cost_eq_zero htail, Greedy.amount_eq_zero htail]
          simp
          omega
        · obtain ⟨hcost, hrest⟩ := ih (remaining - take)
          rw [if_neg hmet]
          rw [hleft] at hcost hrest
          simp only [List.map_cons, List.sum_cons, hcost, hrest, true_and]
          omega

theorem trancheTotal_fill (ms : List Mandate) (remaining : UInt64) :
    trancheTotal (fillTranches ms remaining).1 =
      Greedy.amount (Greedy.fill Mandate.offer ms remaining.toNat) := by
  have h := (fillTranches_fill ms remaining fun _ => 1).1
  simpa [trancheTotal, Greedy.cost, Greedy.amount] using h

theorem weighted_fill (ms : List Mandate) (remaining : UInt64) :
    weighted (fillTranches ms remaining).1 =
      Greedy.cost (fun m => m.minAPRBPS.toNat)
        (Greedy.fill Mandate.offer ms remaining.toNat) :=
  (fillTranches_fill ms remaining UInt32.toNat).1

/-! ### The eligible mandates -/

section Eligible

variable {host : Host} {range : RangeOrder} {s : State} {req : QuoteRequest} {now : Int}

theorem Listed.eligible_iff (h : Listed s) {id : String} {m : Mandate}
    (hm : s.mandates[id]? = some m) : m.eligible req = true ↔ m.Suits req ∧ 0 < m.available := by
  have hrate := h.rate id m hm
  have hadd : (m.minAPRBPS + 50).toNat = m.minAPRBPS.toNat + 50 := by
    rw [UInt32.toNat_add, Nat.mod_eq_of_lt (by simp; omega)]
    rfl
  unfold Mandate.eligible Mandate.Suits
  simp only [Bool.and_eq_true, decide_eq_true_eq, bne_iff_ne, UInt32.le_iff_toNat_le, hadd]
  constructor
  · rintro ⟨⟨⟨hactive, hpos⟩, hterm⟩, hmax⟩
    exact ⟨⟨hactive, hterm, hmax⟩, hpos⟩
  · rintro ⟨⟨hactive, hterm, hmax⟩, hpos⟩
    exact ⟨⟨⟨hactive, hpos⟩, hterm⟩, hmax⟩

/-- A sum over the eligible mandates is one over the map. -/
theorem sum_eligible (h : Listed s) (f : String → Mandate → Nat) :
    ((eligibleMandates host range s req).map fun m => f m.id m).sum =
      total s.mandates fun id m => if m.eligible req then f id m else 0 := by
  have hperm : (eligibleMandates host range s req).Perm
      ((s.rangeMandates range).filter fun m => m.eligible req) := List.perm_insertionSort _ _
  have hkeys : ((range.order s.mandates.keys).map fun id =>
      (s.mandates[id]?).elim 0 fun m => if m.eligible req then f id m else 0).sum =
      total s.mandates fun id m => if m.eligible req then f id m else 0 := by
    rw [((range.perm s.mandates.keys).map _).sum_eq, total, keySet,
      List.sum_toFinset _ Std.ExtTreeMap.nodup_keys]
  rw [(hperm.map _).sum_eq, ← hkeys, State.rangeMandates]
  generalize range.order s.mandates.keys = keys
  induction keys with
  | nil => simp
  | cons id rest ih =>
      cases hm : s.mandates[id]? with
      | none => simp [hm, ih]
      | some m =>
          have hid := h.id id m hm
          by_cases heligible : m.eligible req = true
          · simp [hm, heligible, hid, ih]
          · simp [hm, heligible, ih]

theorem matchesBefore_iff {m m' : Mandate} : matchesBefore host req m m' ↔
    m.minAPRBPS.toNat < m'.minAPRBPS.toNat ∨
      m.minAPRBPS = m'.minAPRBPS ∧ tieBreak host req m ≤ tieBreak host req m' := by
  unfold matchesBefore
  by_cases hrate : m.minAPRBPS = m'.minAPRBPS
  · simp [hrate]
  · simp [hrate, UInt32.lt_iff_toNat_lt]

theorem matchesBefore_rate {m m' : Mandate} (h : matchesBefore host req m m') :
    m.minAPRBPS.toNat ≤ m'.minAPRBPS.toNat := by
  rcases matchesBefore_iff.mp h with hlt | ⟨heq, _⟩
  · exact hlt.le
  · rw [heq]

/-- The comparison is total and transitive, so the sort leaves nothing out of order. -/
instance : Std.Total (matchesBefore host req) where
  total m m' := by
    simp only [matchesBefore_iff]
    rcases Nat.lt_trichotomy m.minAPRBPS.toNat m'.minAPRBPS.toNat with hlt | heq | hgt
    · exact Or.inl (Or.inl hlt)
    · have heq := UInt32.toNat_inj.mp heq
      rcases List.le_total (tieBreak host req m) (tieBreak host req m') with hle | hle
      · exact Or.inl (Or.inr ⟨heq, hle⟩)
      · exact Or.inr (Or.inr ⟨heq.symm, hle⟩)
    · exact Or.inr (Or.inl hgt)

instance : IsTrans Mandate (matchesBefore host req) where
  trans m m' m'' := by
    simp only [matchesBefore_iff]
    rintro (hlt | ⟨heq, hle⟩) (hlt' | ⟨heq', hle'⟩)
    · exact Or.inl (Nat.lt_trans hlt hlt')
    · exact Or.inl (heq' ▸ hlt)
    · exact Or.inl (heq ▸ hlt')
    · exact Or.inr ⟨heq.trans heq', List.le_trans hle hle'⟩

theorem eligibleMandates_sorted :
    (eligibleMandates host range s req).Pairwise fun m m' =>
      m.minAPRBPS.toNat ≤ m'.minAPRBPS.toNat :=
  (List.pairwise_insertionSort (matchesBefore host req) _).imp matchesBefore_rate

/-! ### What is matched -/

/-- What the mandate offers to the request. -/
def Mandate.offerTo (m : Mandate) (req : QuoteRequest) : Nat := if m.Suits req then m.offer else 0

/-- What all of them offer to it. -/
def State.offers (s : State) (req : QuoteRequest) : Nat :=
  total s.mandates fun _ m => m.offerTo req

/-- `x` spreads `amount` over the mandates, on each no more than it offers. -/
structure Allocates (s : State) (req : QuoteRequest) (amount : Nat) (x : String → Nat) : Prop where
  within : ∀ (id : String) (m : Mandate), s.mandates[id]? = some m → x id ≤ m.offerTo req
  sum : (total s.mandates fun id _ => x id) = amount

/-- The quote lends all it can, and no allocation of as much costs less. -/
structure Matched (s : State) (req : QuoteRequest) (q : Quote) : Prop where
  distinct : (q.tranches.map Tranche.mandateID).Nodup
  drawn : ∀ t ∈ q.tranches, ∃ m, s.mandates[t.mandateID]? = some m ∧ m.Suits req ∧
    t.lender = m.lender ∧ t.aprBPS = m.minAPRBPS ∧
    0 < t.principal.toNat ∧ t.principal.toNat ≤ min m.available.toNat m.perBorrowerCap.toNat
  sum : trancheTotal q.tranches = q.amount.toNat
  maximal : q.amount.toNat = min req.amount.toNat (s.offers req)
  cheapest : ∀ x, Allocates s req q.amount.toNat x →
    weighted q.tranches ≤ total s.mandates fun id m => x id * m.minAPRBPS.toNat
  rate : q.borrowerAPRBPS.toNat ≤ req.maxAPRBPS.toNat

/-- What the eligible mandates offer is what all offer. -/
theorem sum_offers (h : Listed s) :
    ((eligibleMandates host range s req).map Mandate.offer).sum = s.offers req := by
  have hsum : ((eligibleMandates host range s req).map fun m => m.offer).sum =
      total s.mandates fun _ m => if m.eligible req then m.offer else 0 :=
    sum_eligible h fun _ m => m.offer
  rw [show Mandate.offer = fun m => m.offer from rfl, hsum]
  refine total_congr fun id m hm => ?_
  have hiff : m.eligible req = true ↔ _ := h.eligible_iff hm
  unfold Mandate.offerTo
  by_cases hsuits : m.Suits req
  · by_cases hpos : 0 < m.available
    · rw [if_pos (hiff.mpr ⟨hsuits, hpos⟩), if_pos hsuits]
    · have hzero : m.available.toNat = 0 := by
        have := UInt64.le_iff_toNat_le.mp (UInt64.not_lt.mp hpos)
        simpa using this
      rw [if_neg fun he => hpos (hiff.mp he).2, if_pos hsuits, Mandate.offer, hzero]
      simp
  · rw [if_neg fun he => hsuits (hiff.mp he).1, if_neg hsuits]

theorem Allocates.eq_zero {x : String → Nat} {n : Nat} (hx : Allocates s req n x) (h : Listed s)
    {id : String} {m : Mandate} (hm : s.mandates[id]? = some m) (hno : m.eligible req = false) :
    x id = 0 := by
  have hwithin := hx.within id m hm
  unfold Mandate.offerTo Mandate.offer at hwithin
  by_cases hsuits : m.Suits req
  · have hpos : ¬ 0 < m.available := fun hpos => by
      simp [(h.eligible_iff hm).mpr ⟨hsuits, hpos⟩] at hno
    have hzero := UInt64.le_iff_toNat_le.mp (UInt64.not_lt.mp hpos)
    rw [if_pos hsuits] at hwithin
    simp only [UInt64.toNat_zero] at hzero
    omega
  · rw [if_neg hsuits] at hwithin
    omega

/-- An allocation weighed by `g` is told from the eligible mandates. -/
theorem Allocates.sum_eligible {x : String → Nat} {n : Nat} (hx : Allocates s req n x)
    (h : Listed s) (g : Mandate → Nat) :
    ((eligibleMandates host range s req).map fun m => x m.id * g m).sum =
      total s.mandates fun id m => x id * g m := by
  rw [QuietLine.sum_eligible h fun id m => x id * g m]
  refine total_congr fun id m hm => ?_
  cases heligible : m.eligible req with
  | true => simp
  | false => simp [hx.eq_zero h hm heligible]

/-- The filling of the eligible mandates is cheapest. -/
theorem weighted_le_of_allocates (h : Listed s) {remaining : UInt64} {x : String → Nat}
    (hx : Allocates s req
      (trancheTotal (fillTranches (eligibleMandates host range s req) remaining).1) x) :
    weighted (fillTranches (eligibleMandates host range s req) remaining).1 ≤
      total s.mandates fun id m => x id * m.minAPRBPS.toNat := by
  have hlimit : ∀ m ∈ eligibleMandates host range s req, x m.id ≤ m.offer := by
    intro m hmem
    obtain ⟨⟨id, hm⟩, heligible⟩ := mem_eligibleMandates.mp hmem
    have hwithin := hx.within id m hm
    rw [Mandate.offerTo, if_pos ((h.eligible_iff hm).mp heligible).1] at hwithin
    rwa [h.id id m hm]
  have hone : ((eligibleMandates host range s req).map fun m => x m.id * 1).sum = _ :=
    hx.sum_eligible h fun _ => 1
  simp only [Nat.mul_one] at hone
  rw [hx.sum, trancheTotal_fill] at hone
  have hcost : ((eligibleMandates host range s req).map fun m =>
      x m.id * m.minAPRBPS.toNat).sum = _ := hx.sum_eligible h fun m => m.minAPRBPS.toNat
  rw [weighted_fill, ← hcost]
  exact Greedy.cost_fill_le eligibleMandates_sorted hlimit hone

/-- Each tranche is within the borrower's maximum, and so is what they cost on the whole. -/
theorem weighted_add_le {ts : List Tranche} {top : Nat}
    (h : ∀ t ∈ ts, t.aprBPS.toNat + 50 ≤ top) :
    weighted ts + trancheTotal ts * 50 ≤ trancheTotal ts * top := by
  induction ts with
  | nil => simp
  | cons t rest ih =>
      have hrest := ih fun u hu => h u (List.mem_cons_of_mem _ hu)
      have hhead := Nat.mul_le_mul_left t.principal.toNat (h t List.mem_cons_self)
      simp only [weighted_cons, trancheTotal_cons, Nat.add_mul, Nat.mul_add] at hhead ⊢
      omega

/-! ### What is answered -/

/-- What `quoteTerms` makes of a filling. -/
theorem quoteTerms_ok {price : UInt64} {filled : List Tranche × UInt64} {q : Quote}
    (hq : quoteTerms req price filled = .ok q) :
    q.tranches = filled.1 ∧ q.amount = req.amount - filled.2 ∧ ∃ apr,
      weightedAverage filled.1 (req.amount - filled.2) = .ok apr ∧ ¬ apr > 0xFFFFFFFF - 50 ∧
        q.borrowerAPRBPS = apr + 50 := by
  unfold quoteTerms at hq
  simp only [bind_eq_ok, rejectIf_eq_ok] at hq
  obtain ⟨_, _, apr, hapr, _, hmax, _, _, hq⟩ := hq
  cases hq
  exact ⟨rfl, rfl, apr, hapr, hmax, rfl⟩

theorem matched_of_ok (h : Listed s) {q : Quote} (hq : quote host range s req now = .ok q) :
    Matched s req q := by
  obtain ⟨hfunded, _, hsub, hdrawn⟩ := quote_ok hq
  have hterms := hq
  rw [quote_admitted (admitted_of_ok hq)] at hterms
  obtain ⟨htranches, hamount, apr, hapr, hmax, hrate⟩ := quoteTerms_ok hterms
  have htotal := hfunded.total
  have hoffers := trancheTotal_fill (eligibleMandates host range s req) req.amount
  rw [Greedy.amount_fill, sum_offers h] at hoffers
  have hsuits : ∀ t ∈ q.tranches, ∃ m, s.mandates[t.mandateID]? = some m ∧ m.Suits req ∧
      t.lender = m.lender ∧ t.aprBPS = m.minAPRBPS ∧ 0 < t.principal.toNat ∧
      t.principal.toNat ≤ min m.available.toNat m.perBorrowerCap.toNat := by
    intro t ht
    obtain ⟨m, hmem, hd⟩ := hdrawn t ht
    obtain ⟨⟨id, hm⟩, heligible⟩ := mem_eligibleMandates.mp hmem
    have hid : s.mandates[t.mandateID]? = some m := by
      rw [hd.id, h.id id m hm]
      exact hm
    exact ⟨m, hid, ((h.eligible_iff hm).mp heligible).1, hd.lender, hd.apr, hd.positive,
      le_min hd.within_available hd.within_cap⟩
  refine ⟨(eligibleMandates_nodup h.id).sublist hsub, hsuits, htotal, ?_, ?_, ?_⟩
  · rw [← htotal, htranches, hoffers]
  · intro x hx
    rw [← htotal, htranches] at hx
    rw [htranches]
    exact weighted_le_of_allocates h hx
  · have hwithin : ∀ t ∈ q.tranches, t.aprBPS.toNat + 50 ≤ req.maxAPRBPS.toNat := by
      intro t ht
      obtain ⟨m, _, hm, _, hapr, _⟩ := hsuits t ht
      rw [hapr]
      exact hm.2.2
    have hweighted := weighted_add_le hwithin
    obtain ⟨_, haverage⟩ := weightedAverage_eq_ok hapr
    rw [← hamount, ← htranches] at haverage
    rw [htotal] at hweighted
    have hdown : q.amount.toNat * apr.toNat ≤ weighted q.tranches := by
      rw [haverage]
      exact Nat.mul_div_le _ _
    have hadd : (apr + 50).toNat = apr.toNat + 50 := by
      have hlt : apr.toNat ≤ 4294967245 := by
        simpa [UInt32.le_iff_toNat_le] using UInt32.not_lt.mp hmax
      rw [UInt32.toNat_add, Nat.mod_eq_of_lt (by simp; omega)]
      rfl
    rw [hrate, hadd]
    refine Nat.le_of_mul_le_mul_left ?_ hfunded.amount_pos
    rw [Nat.mul_add]
    omega

/-- The end of `quote` is short of liquidity where nothing was filled. -/
theorem quoteTerms_insufficient {price : UInt64} {filled : List Tranche × UInt64} :
    quoteTerms req price filled = .error .insufficientLiquidity ↔ req.amount - filled.2 = 0 := by
  have hpost : Post (quoteTerms req price filled) (fun _ => ¬ req.amount - filled.2 = 0)
      fun e => e = .insufficientLiquidity → req.amount - filled.2 = 0 := by
    unfold quoteTerms
    refine Post.rejectIf (fun hnone _ => hnone) fun hfunded => ?_
    refine Post.bind (R := fun _ => True) (Post.of_forall (fun _ _ => trivial) fun e he => ?_)
      fun apr _ => ?_
    · rcases weightedAverage_error he with rfl | rfl <;> simp
    refine Post.rejectIf (by simp) fun _ => ?_
    refine Post.bind (R := fun _ => True) (Post.of_forall (fun _ _ => trivial) fun e he => ?_)
      fun coll _ => Post.ok hfunded
    rcases mulDivBy_error he with rfl | rfl <;> simp
  constructor
  · intro herror
    exact hpost.of_error herror rfl
  · intro hnone
    unfold quoteTerms
    dsimp only
    rw [rejectIf_of hnone, error_bind]

/-- **Matching is maximal and cheapest**, and fails for want of liquidity exactly where no mandate
that suits has any to offer. -/
theorem matching_cheapest (h : Listed s) :
    (∀ q, quote host range s req now = .ok q → Matched s req q) ∧
      (quote host range s req now = .error .insufficientLiquidity ↔
        Admitted s req now ∧ s.offers req = 0) := by
  refine ⟨fun q hq => matched_of_ok h hq, ?_⟩
  have hiff : ∀ hadmitted : Admitted s req now,
      (quote host range s req now = .error .insufficientLiquidity ↔ s.offers req = 0) := by
    intro hadmitted
    have hfilled := fillTranches_spec (eligibleMandates host range s req) req.amount
    have htotal := trancheTotal_fill (eligibleMandates host range s req) req.amount
    rw [Greedy.amount_fill, sum_offers h] at htotal
    have hpos := toNat_pos_of_ne_zero hadmitted.amount
    have hle : (fillTranches (eligibleMandates host range s req) req.amount).2 ≤ req.amount :=
      UInt64.le_iff_toNat_le.mpr (by omega)
    rw [quote_admitted hadmitted, quoteTerms_insufficient, ← UInt64.toNat_inj,
      UInt64.toNat_sub_of_le _ _ hle, UInt64.toNat_zero]
    omega
  constructor
  · intro herror
    have hadmitted := admitted_of_quote.of_error herror rfl
    exact ⟨hadmitted, (hiff hadmitted).mp herror⟩
  · rintro ⟨hadmitted, hzero⟩
    exact (hiff hadmitted).mpr hzero

end Eligible

/-- Three lenders, one at 6% and two at 8%. -/
def offering : List Operation := [
  .deposit "0xc" "USDT0" 1000000 "d1",
  .deposit "0xd" "USDT0" 2000000 "d2",
  .deposit "0xe" "USDT0" 1000000 "d3",
  .setMandate "0xc" "m1" 1000000 800 7 1000000 0,
  .setMandate "0xd" "m2" 2000000 600 7 2000000 0,
  .setMandate "0xe" "m3" 1000000 800 7 1000000 0]

/-- The market that they make, at an observed price. -/
def sampleMarket : State :=
  { ledgerAfter .wrapping sampleHost (settledCalls .wrapping sampleHost newState offering)
      with price := { xrpUSDE6 := 2000000, updatedAt := 1000 } }

/-- A request for all of the cheapest and half of one of the others. -/
def sampleRequest : QuoteRequest :=
  { id := "q2", borrower := "0xb", amount := 2500000, termDays := 7, maxAPRBPS := 1000,
    collateralFXRP := 9000000, expiresAt := 2000 }

theorem sampleMarket_listed : Listed sampleMarket :=
  (listed_ledgerAfter .wrapping sampleHost
    (settledCalls .wrapping sampleHost newState offering)).observed _

theorem matching_sample : ∃ q,
    quote sampleHost .sorted sampleMarket sampleRequest 1000 = .ok q ∧
      q.tranches.map (fun t => (t.mandateID, t.principal)) = [("m2", 2000000), ("m1", 500000)] := by
  have hquoted : (quote sampleHost .sorted sampleMarket sampleRequest 1000).toOption.map
      (fun q => q.tranches.map fun t => (t.mandateID, t.principal)) =
        some [("m2", 2000000), ("m1", 500000)] := by
    unfold sampleMarket ledgerAfter
    rw [run_settledCalls]
    decide +kernel
  generalize quote sampleHost .sorted sampleMarket sampleRequest 1000 = answer at hquoted
  cases answer with
  | error e => simp [Except.toOption] at hquoted
  | ok q => exact ⟨q, rfl, by simpa [Except.toOption] using hquoted⟩

/-- It is matched with the cheapest first, and of the two that tie with one. -/
theorem matching_cheapest_tied : ∃ q,
    quote sampleHost .sorted sampleMarket sampleRequest 1000 = .ok q ∧
      q.tranches.map (fun t => (t.mandateID, t.principal)) = [("m2", 2000000), ("m1", 500000)] ∧
      Matched sampleMarket sampleRequest q := by
  obtain ⟨q, hq, htranches⟩ := matching_sample
  exact ⟨q, hq, htranches, (matching_cheapest sampleMarket_listed).1 q hq⟩

end QuietLine
