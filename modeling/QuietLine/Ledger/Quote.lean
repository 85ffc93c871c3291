/-
Quotes: matching a request against the mandates (`quote`, `sameQuote`).

The eligible mandates are sorted by rate, ties by a digest of the mandate and the
request, and filled greedily.  `sort.Slice` is not stable, so mandates that the
comparison does not separate may come out in any order; they do so here too,
because the sort starts from an arbitrary enumeration of the map.
-/
import QuietLine.Ledger.Arithmetic

namespace QuietLine

open Outcome

/-! ### Matching -/

/-- The mandates `quote` collects. -/
def Mandate.eligible (m : Mandate) (req : QuoteRequest) : Bool :=
  m.active && 0 < m.available && (m.termMask &&& termBit req.termDays) != 0 &&
    m.minAPRBPS + 50 ≤ req.maxAPRBPS

/-- `sha256.Sum256([]byte(m.ID + req.ID))`, as the bytes the comparison reads. -/
def tieBreak (host : Host) (req : QuoteRequest) (m : Mandate) : List UInt8 :=
  (host.sha256 (Bytes.utf8 (m.id ++ req.id))).toList

/-- `m` may stand before `m'`: the comparison does not put `m'` strictly first. -/
def matchesBefore (host : Host) (req : QuoteRequest) (m m' : Mandate) : Prop :=
  if m.minAPRBPS ≠ m'.minAPRBPS then m.minAPRBPS < m'.minAPRBPS
  else ¬ tieBreak host req m' < tieBreak host req m

instance (host : Host) (req : QuoteRequest) : DecidableRel (matchesBefore host req) :=
  fun m m' => inferInstanceAs (Decidable (if m.minAPRBPS ≠ m'.minAPRBPS
    then m.minAPRBPS < m'.minAPRBPS else ¬ tieBreak host req m' < tieBreak host req m))

/-- The values of the mandate map, in the order one `range` visits them. -/
def State.rangeMandates (s : State) (range : RangeOrder) : List Mandate :=
  (range.order s.mandates.keys).filterMap fun id => s.mandates[id]?

def eligibleMandates (host : Host) (range : RangeOrder) (s : State) (req : QuoteRequest) :
    List Mandate :=
  ((s.rangeMandates range).filter fun m => m.eligible req).insertionSort (matchesBefore host req)

/-- Take from each mandate in turn until nothing remains of the request. -/
def fillTranches : List Mandate → UInt64 → List Tranche × UInt64
  | [], remaining => ([], remaining)
  | m :: rest, remaining =>
      let take := m.available
      let take := if take > m.perBorrowerCap then m.perBorrowerCap else take
      let take := if take > remaining then remaining else take
      if take = 0 then
        fillTranches rest remaining
      else
        let tranche : Tranche :=
          { mandateID := m.id, lender := m.lender, principal := take, aprBPS := m.minAPRBPS }
        if remaining - take = 0 then
          ([tranche], 0)
        else
          let filled := fillTranches rest (remaining - take)
          (tranche :: filled.1, filled.2)

/-- `quote`. -/
def quote (host : Host) (range : RangeOrder) (s : State) (req : QuoteRequest) (now : Int) :
    Except LedgerError Quote := do
  rejectIf (req.amount = 0 ∨ req.collateralFXRP = 0 ∨ termBit req.termDays = 0 ∨
    req.maxAPRBPS < 650 ∨ req.expiresAt ≤ now) .invalidQuoteRequest
  rejectIf (s.price.xrpUSDE6 = 0 ∨ int64 (now - s.price.updatedAt) > 300) .stalePrice
  let value ← mulDiv [req.collateralFXRP, s.price.xrpUSDE6] scale false
  let ltv ← mulDiv [req.amount, bps] value false
  rejectIf (value = 0 ∨ ltv > 5000) .initialLTV
  let filled := fillTranches (eligibleMandates host range s req) req.amount
  let funded := req.amount - filled.2
  rejectIf (funded = 0) .insufficientLiquidity
  let lenderAPR ← weightedAverage filled.1 funded
  rejectIf (lenderAPR > 0xFFFFFFFF - 50) .arithmeticOverflow
  let quotedCollateral ← mulDiv [req.collateralFXRP, funded] req.amount true
  return {
    requestID := req.id
    borrower := toLower req.borrower
    amount := funded
    requestedAmount := req.amount
    termDays := req.termDays
    collateralFXRP := quotedCollateral
    requestedCollateralFXRP := req.collateralFXRP
    isPartial := funded < req.amount
    lenderAPRBPS := lenderAPR
    borrowerAPRBPS := lenderAPR + 50
    maxAPRBPS := req.maxAPRBPS
    tranches := filled.1
    expiresAt := req.expiresAt
    priceE6 := s.price.xrpUSDE6 }

/-- An observation that `QuoteAtPrice`, `AcceptQuote` and `RiskTick` refuse. -/
def Price.isUnusable (observed : Price) (now : Int) : Bool :=
  observed.xrpUSDE6 = 0 || observed.updatedAt > now || int64 (now - observed.updatedAt) > 300

/-- `QuoteAtPrice`. -/
def quoteAtPrice (host : Host) (range : RangeOrder) (s : State) (req : QuoteRequest)
    (observed : Price) (now : Int) : Except LedgerError Quote := do
  rejectIf (observed.isUnusable now) .invalidObservation
  quote host range { s with price := observed } req now

/-- The quote `b` with the fields a caller may leave out filled in. -/
def Quote.withDefaults (b : Quote) : Quote :=
  { b with
    requestedAmount := if b.requestedAmount = 0 then b.amount else b.requestedAmount
    requestedCollateralFXRP :=
      if b.requestedCollateralFXRP = 0 then b.collateralFXRP else b.requestedCollateralFXRP }

/-- `sameQuote`: equal terms, whatever the price. -/
def sameQuote (a b : Quote) : Bool :=
  { a with borrower := toLower a.borrower } =
    { b.withDefaults with borrower := toLower b.borrower, priceE6 := a.priceE6 }

/-- The request whose fresh quote `AcceptQuote` compares with `q`. -/
def Quote.request (q : Quote) : QuoteRequest :=
  { id := q.requestID
    borrower := q.borrower
    amount := q.withDefaults.requestedAmount
    termDays := q.termDays
    maxAPRBPS := q.maxAPRBPS
    collateralFXRP := q.withDefaults.requestedCollateralFXRP
    expiresAt := q.expiresAt }

/-! ### What a filling takes -/

/-- The principal of a list of tranches. -/
def trancheTotal (tranches : List Tranche) : Nat :=
  (tranches.map fun t => t.principal.toNat).sum

/-- The part of it that one mandate lends. -/
def trancheShare (mandateID : String) (tranches : List Tranche) : Nat :=
  (tranches.map fun t => if t.mandateID = mandateID then t.principal.toNat else 0).sum

@[simp] theorem trancheTotal_nil : trancheTotal [] = 0 := rfl

@[simp] theorem trancheTotal_cons (t : Tranche) (rest : List Tranche) :
    trancheTotal (t :: rest) = t.principal.toNat + trancheTotal rest := by
  simp [trancheTotal]

@[simp] theorem trancheShare_nil (id : String) : trancheShare id [] = 0 := rfl

@[simp] theorem trancheShare_cons (id : String) (t : Tranche) (rest : List Tranche) :
    trancheShare id (t :: rest) =
      (if t.mandateID = id then t.principal.toNat else 0) + trancheShare id rest := by
  simp [trancheShare]

@[simp] theorem weighted_nil : weighted [] = 0 := rfl

@[simp] theorem weighted_cons (t : Tranche) (rest : List Tranche) :
    weighted (t :: rest) = t.principal.toNat * t.aprBPS.toNat + weighted rest := by
  simp [weighted]

/-- `t` is drawn on `m` and within what `m` offers one borrower. -/
structure Tranche.DrawnOn (t : Tranche) (m : Mandate) : Prop where
  id : t.mandateID = m.id
  lender : t.lender = m.lender
  apr : t.aprBPS = m.minAPRBPS
  positive : 0 < t.principal.toNat
  within_available : t.principal.toNat ≤ m.available.toNat
  within_cap : t.principal.toNat ≤ m.perBorrowerCap.toNat

/-- What one mandate gives: no more than it has, than its cap, or than is asked. -/
theorem take_le {available cap remaining take : UInt64}
    (h : take = (let t := if available > cap then cap else available
      if t > remaining then remaining else t)) :
    take.toNat ≤ available.toNat ∧ take.toNat ≤ cap.toNat ∧ take.toNat ≤ remaining.toNat := by
  subst h
  simp only [GT.gt, UInt64.lt_iff_toNat_lt]
  split <;> split <;> omega

theorem toNat_pos_of_ne_zero {a : UInt64} (h : a ≠ 0) : 0 < a.toNat := by
  rcases Nat.eq_zero_or_pos a.toNat with h0 | h0
  · exact absurd (UInt64.toNat_inj.mp h0) h
  · exact h0

/-- **A filling accounts for the whole request**: what it lends and what remains add up to
the amount asked, and each tranche is drawn on one of the mandates, in their order. -/
theorem fillTranches_spec (ms : List Mandate) (remaining : UInt64) :
    trancheTotal (fillTranches ms remaining).1 + (fillTranches ms remaining).2.toNat =
        remaining.toNat ∧
      ((fillTranches ms remaining).1.map Tranche.mandateID).Sublist (ms.map Mandate.id) ∧
      ∀ t ∈ (fillTranches ms remaining).1, ∃ m ∈ ms, t.DrawnOn m := by
  induction ms generalizing remaining with
  | nil =>
      simp [fillTranches]
  | cons m rest ih =>
      generalize htake : (let t := if m.available > m.perBorrowerCap then m.perBorrowerCap
        else m.available; if t > remaining then remaining else t) = take
      obtain ⟨havail, hcap, hrem⟩ := take_le htake.symm
      have hrec : ∀ {ts : List Tranche},
          (∀ t ∈ ts, ∃ m' ∈ rest, t.DrawnOn m') → ∀ t ∈ ts, ∃ m' ∈ m :: rest, t.DrawnOn m' := by
        intro ts hts t ht
        obtain ⟨m', hm', hd⟩ := hts t ht
        exact ⟨m', List.mem_cons_of_mem _ hm', hd⟩
      unfold fillTranches
      simp only at htake
      simp only [htake]
      by_cases h0 : take = 0
      · obtain ⟨hsum, hsub, hdrawn⟩ := ih remaining
        rw [if_pos h0]
        exact ⟨hsum, hsub.cons _, hrec hdrawn⟩
      · have hpos := toNat_pos_of_ne_zero h0
        have hdrawn : Tranche.DrawnOn ⟨m.id, m.lender, take, m.minAPRBPS⟩ m :=
          ⟨rfl, rfl, rfl, hpos, havail, hcap⟩
        have hleft : (remaining - take).toNat = remaining.toNat - take.toNat :=
          UInt64.toNat_sub_of_le _ _ (UInt64.le_iff_toNat_le.mpr hrem)
        rw [if_neg h0]
        by_cases hdone : remaining - take = 0
        · have hzero : (remaining - take).toNat = 0 := by rw [hdone]; rfl
          rw [if_pos hdone]
          refine ⟨?_, ?_, ?_⟩
          · simp
            omega
          · simp
          · intro t ht
            rw [List.mem_singleton] at ht
            exact ⟨m, List.mem_cons_self, ht ▸ hdrawn⟩
        · obtain ⟨hsum, hsub, hrest⟩ := ih (remaining - take)
          rw [if_neg hdone]
          refine ⟨?_, ?_, ?_⟩
          · simp only [trancheTotal_cons]
            omega
          · exact hsub.cons_cons _
          · intro t ht
            rcases List.mem_cons.mp ht with rfl | ht
            · exact ⟨m, List.mem_cons_self, hdrawn⟩
            · exact hrec hrest t ht

/-! ### What a quote promises -/

theorem mem_rangeMandates {s : State} {range : RangeOrder} {m : Mandate} :
    m ∈ s.rangeMandates range ↔ ∃ id : String, s.mandates[id]? = some m := by
  unfold State.rangeMandates
  rw [List.mem_filterMap]
  constructor
  · rintro ⟨id, _, h⟩
    exact ⟨id, h⟩
  · rintro ⟨id, h⟩
    refine ⟨id, (range.perm _).mem_iff.mpr ?_, h⟩
    rw [Std.ExtTreeMap.mem_keys, Std.ExtTreeMap.mem_iff_isSome_getElem?, h]
    rfl

/-- Where every mandate is filed under its own id, a `range` meets each id once. -/
theorem rangeMandates_nodup {s : State} {range : RangeOrder}
    (hids : ∀ (id : String) (m : Mandate), s.mandates[id]? = some m → m.id = id) :
    ((s.rangeMandates range).map Mandate.id).Nodup := by
  have hkeys : (range.order s.mandates.keys).Nodup :=
    (range.perm _).nodup_iff.mpr Std.ExtTreeMap.nodup_keys
  unfold State.rangeMandates
  generalize range.order s.mandates.keys = keys at hkeys
  induction keys with
  | nil => simp
  | cons id rest ih =>
      rw [List.nodup_cons] at hkeys
      have hrest := ih hkeys.2
      cases hm : s.mandates[id]? with
      | none => simpa [List.filterMap_cons, hm] using hrest
      | some m =>
          rw [List.filterMap_cons, hm]
          simp only [List.map_cons, List.nodup_cons]
          refine ⟨?_, hrest⟩
          intro hmem
          obtain ⟨m', hm', heq⟩ := List.mem_map.mp hmem
          obtain ⟨id', hid', hget⟩ := List.mem_filterMap.mp hm'
          rw [hids _ _ hget, hids _ _ hm] at heq
          exact hkeys.1 (heq ▸ hid')

/-- What a funded quote says about its tranches, whoever computed it. -/
structure Quote.Funded (q : Quote) : Prop where
  amount_pos : 0 < q.amount.toNat
  total : trancheTotal q.tranches = q.amount.toNat
  rate_pos : 0 < q.borrowerAPRBPS.toNat
  rate : weighted q.tranches ≤ q.amount.toNat * q.borrowerAPRBPS.toNat

theorem weighted_le_of_average {w total average : Nat} (htotal : 0 < total)
    (h : average = w / total) : w ≤ total * (average + 50) := by
  have hlt : w < total * (w / total + 1) := Nat.lt_mul_div_succ w htotal
  have hle : total * (w / total + 1) ≤ total * (average + 50) :=
    Nat.mul_le_mul_left _ (by omega)
  omega

/-- **What an answered quote is**: it is funded, each of its tranches is drawn on an eligible
mandate of the state, and the mandates come in the order of the eligible ones. -/
theorem quote_ok {host : Host} {range : RangeOrder} {s : State} {req : QuoteRequest} {now : Int}
    {q : Quote} (h : quote host range s req now = .ok q) :
    q.Funded ∧ q.amount.toNat ≤ req.amount.toNat ∧
      (q.tranches.map Tranche.mandateID).Sublist
        ((eligibleMandates host range s req).map Mandate.id) ∧
      (∀ t ∈ q.tranches, ∃ m ∈ eligibleMandates host range s req, t.DrawnOn m) := by
  unfold quote at h
  simp only [bind_eq_ok, rejectIf_eq_ok] at h
  obtain ⟨_, _, _, _, value, _, ltv, _, _, _, _, hfunded, lenderAPR, hapr, _, hmax, coll, _, hq⟩ := h
  obtain ⟨hsum, hsub, hdrawn⟩ := fillTranches_spec (eligibleMandates host range s req) req.amount
  obtain ⟨_, haverage⟩ := weightedAverage_eq_ok hapr
  have hleft : (fillTranches (eligibleMandates host range s req) req.amount).2 ≤ req.amount :=
    UInt64.le_iff_toNat_le.mpr (by omega)
  have hamount := UInt64.toNat_sub_of_le _ _ hleft
  have hapr50 : (lenderAPR + 50).toNat = lenderAPR.toNat + 50 := by
    have hlt : lenderAPR.toNat ≤ 4294967245 := by
      simpa [UInt32.le_iff_toNat_le] using UInt32.not_lt.mp hmax
    rw [UInt32.toNat_add, Nat.mod_eq_of_lt (by simp; omega)]
    rfl
  have hpos := toNat_pos_of_ne_zero hfunded
  cases hq
  refine ⟨⟨hpos, ?_, ?_, ?_⟩, ?_, hsub, hdrawn⟩
  · show trancheTotal (fillTranches _ _).1 = (req.amount - _).toNat
    omega
  · show 0 < (lenderAPR + 50).toNat
    omega
  · show weighted (fillTranches _ _).1 ≤ (req.amount - _).toNat * (lenderAPR + 50).toNat
    rw [hapr50]
    exact weighted_le_of_average hpos haverage
  · show (req.amount - _).toNat ≤ _
    omega

theorem mem_eligibleMandates {host : Host} {range : RangeOrder} {s : State} {req : QuoteRequest}
    {m : Mandate} :
    m ∈ eligibleMandates host range s req ↔
      (∃ id : String, s.mandates[id]? = some m) ∧ m.eligible req = true := by
  unfold eligibleMandates
  rw [List.mem_insertionSort, List.mem_filter, mem_rangeMandates]

theorem eligibleMandates_nodup {host : Host} {range : RangeOrder} {s : State} {req : QuoteRequest}
    (hids : ∀ (id : String) (m : Mandate), s.mandates[id]? = some m → m.id = id) :
    ((eligibleMandates host range s req).map Mandate.id).Nodup := by
  unfold eligibleMandates
  rw [((List.perm_insertionSort _ _).map Mandate.id).nodup_iff]
  exact (rangeMandates_nodup hids).sublist (List.filter_sublist.map _)

/-- Where `sameQuote` accepts, the caller's quote carries the fresh one's terms. -/
theorem sameQuote_eq {a b : Quote} (h : sameQuote a b = true) :
    b.amount = a.amount ∧ b.collateralFXRP = a.collateralFXRP ∧
      b.borrowerAPRBPS = a.borrowerAPRBPS ∧ b.tranches = a.tranches ∧
      b.requestID = a.requestID ∧ toLower b.borrower = toLower a.borrower := by
  unfold sameQuote at h
  have heq := of_decide_eq_true h
  simp only [Quote.mk.injEq, Quote.withDefaults] at heq
  obtain ⟨hid, hborrower, hamount, _, _, hcoll, _, _, _, hbapr, _, htranches, _⟩ := heq
  exact ⟨hamount.symm, hcoll.symm, hbapr.symm, htranches.symm, hid.symm, hborrower.symm⟩

end QuietLine
