/-
The initial limit (`quote`, `AcceptQuote`).

`quote` tests the amount and the collateral that were requested.  The loan is made of the
funded amount and a rounded-up share of the collateral, and its value is rounded down again,
so what was within the limit as a whole need not be so in part.  It is where the request is funded
in full, or was for half of its collateral's value at most (`KeepsInitialLimit`); every other
request was above one half, and passed because the LTV that is tested is rounded down as well.
-/
import QuietLine.Proofs.Acceptance
import QuietLine.Proofs.Classification
import QuietLine.Proofs.Ticks

namespace QuietLine

open Outcome

/-! ### What the loan starts at -/

/-- The LTV of a loan, as `updateRisk` computes it. -/
def loanLTV (l : Loan) (priceE6 : UInt64) : Except LedgerError UInt64 := do
  let value ← mulDiv [l.collateralFXRP, priceE6] scale false
  let d ← debt l
  mulDiv [d, bps] value false

/-- The loan is within the initial limit, and its status is that of such a loan. -/
def StartsWithinLimit (l : Loan) (priceE6 : UInt64) : Prop :=
  (∃ ltv, loanLTV l priceE6 = .ok ltv ∧ ltv ≤ 5000) ∧
    (l.status = .healthy ∨ l.status = .restricted)

/-- The value of the collateral that was requested against, as `quote` computes it. -/
def Quote.requestedValue (q : Quote) (priceE6 : UInt64) : Nat :=
  q.request.collateralFXRP.toNat * priceE6.toNat / scale.toNat

/-- The request was funded in full, or for half of its collateral's value at most. -/
def KeepsInitialLimit (q : Quote) (priceE6 : UInt64) : Prop :=
  q.amount = q.request.amount ∨ 2 * q.request.amount.toNat ≤ q.requestedValue priceE6

/-- The request is above one half of the value, and its LTV is not once it is rounded down. -/
def PassesByRounding (q : Quote) (priceE6 : UInt64) : Prop :=
  q.requestedValue priceE6 < 2 * q.request.amount.toNat ∧
    q.request.amount.toNat * bps.toNat / q.requestedValue priceE6 ≤ 5000

/-- The times of a loan that starts now are `int64`s, to the end of its grace day. -/
def Quote.TermInRange (q : Quote) (now : Int) : Prop :=
  IsInt64 now ∧ IsInt64 (now + q.termDays.toNat * 86400 + 86400)

/-! ### The share of the collateral -/

/-- A share rounded up is worth its part of the whole, so twice the amount stays twice the
amount. -/
theorem twice_le_share {amount requested coll requestedColl price unit : Nat}
    (hunit : 0 < unit) (hpos : 0 < requested) (hshare : requestedColl * amount ≤ coll * requested)
    (h : 2 * requested ≤ requestedColl * price / unit) : 2 * amount ≤ coll * price / unit := by
  rw [Nat.le_div_iff_mul_le hunit] at h ⊢
  refine Nat.le_of_mul_le_mul_right ?_ hpos
  calc 2 * amount * unit * requested = amount * (2 * requested * unit) := by ring
    _ ≤ amount * (requestedColl * price) := Nat.mul_le_mul_left _ h
    _ = requestedColl * amount * price := by ring
    _ ≤ coll * requested * price := Nat.mul_le_mul_right _ hshare
    _ = coll * price * requested := by ring

/-- A floored ratio is below a bound where the denominator is above a floored quotient. -/
theorem ratio_le_iff {owed value bound : Nat} (hvalue : 0 < value) :
    owed / value ≤ bound ↔ owed / (bound + 1) + 1 ≤ value := by
  rw [← Nat.lt_succ_iff, Nat.succ_eq_add_one, Nat.div_lt_iff_lt_mul hvalue, Nat.add_one_le_iff,
    Nat.div_lt_iff_lt_mul (Nat.succ_pos bound), Nat.mul_comm]

section Share

variable {host : Host} {range : RangeOrder} {s : State} {req : QuoteRequest} {now : Int} {q : Quote}

/-- The collateral of a quote is the funded share of the one requested, rounded up. -/
theorem quoteTerms_collateral {price : UInt64} {filled : List Tranche × UInt64}
    (h : quoteTerms req price filled = .ok q) :
    req.collateralFXRP.toNat * q.amount.toNat ≤ q.collateralFXRP.toNat * req.amount.toNat ∧
      (q.amount = req.amount → q.collateralFXRP = req.collateralFXRP) := by
  unfold quoteTerms at h
  simp only [bind_eq_ok, rejectIf_eq_ok] at h
  obtain ⟨_, _, apr, _, _, _, coll, hcoll, hq⟩ := h
  obtain ⟨hzero, hround⟩ := mulDivBy_eq_ok hcoll
  have hdivisor : ([req.amount].map UInt64.toNat).prod = req.amount.toNat := by simp
  rw [prod_two, hdivisor] at hround
  simp only [List.mem_singleton] at hzero
  have hpos := toNat_pos_of_ne_zero (Ne.symm hzero)
  obtain rfl := Except.ok.inj hq
  dsimp only
  generalize req.amount - filled.2 = funded at hround ⊢
  have hsplit := Nat.div_add_mod (req.collateralFXRP.toNat * funded.toNat) req.amount.toNat
  constructor
  · by_cases hrem : req.collateralFXRP.toNat * funded.toNat % req.amount.toNat = 0
    · rw [if_neg fun h => h.2 hrem] at hround
      rw [hround, Nat.add_zero, Nat.mul_comm _ req.amount.toNat]
      omega
    · have hlt := Nat.mod_lt (req.collateralFXRP.toNat * funded.toNat) hpos
      rw [if_pos ⟨rfl, hrem⟩] at hround
      rw [hround, Nat.add_mul, Nat.mul_comm _ req.amount.toNat]
      omega
  · rintro rfl
    rw [Nat.mul_mod_left, Nat.mul_div_cancel _ hpos] at hround
    simpa [← UInt64.toNat_inj] using hround

/-- A full quote, or one for half of the value at most, is worth enough. -/
theorem share_worth (hq : quote host range s req now = .ok q)
    (h : q.amount = req.amount ∨ 2 * req.amount.toNat ≤
      req.collateralFXRP.toNat * s.price.xrpUSDE6.toNat / scale.toNat) :
    scale.toNat * (q.amount.toNat * bps.toNat / 5001 + 1) ≤
      q.collateralFXRP.toNat * s.price.xrpUSDE6.toNat := by
  have hadmitted := admitted_of_ok hq
  have hfunded := (quote_ok hq).1.amount_pos
  have hterms := hq
  rw [quote_admitted hadmitted] at hterms
  obtain ⟨hshare, hfull⟩ := quoteTerms_collateral hterms
  have hunit : 0 < scale.toNat := by decide
  rw [Nat.mul_comm, ← Nat.le_div_iff_mul_le hunit]
  rcases h with hamount | hhalf
  · rw [hfull hamount, hamount]
    exact (ratio_le_iff (Nat.pos_of_ne_zero hadmitted.value)).mp hadmitted.ltv
  · have htwice := twice_le_share hunit (toNat_pos_of_ne_zero hadmitted.amount) hshare hhalf
    have hbps : bps.toNat = 10000 := rfl
    rw [hbps]
    omega

end Share

/-! ### What the acceptance makes of it -/

section Start

variable {A : Arith} {host : Host} {ctx : Context} {s s' : State} {q : Quote} {loanID : String}
  {nonce : Nat} {observed : Option Price} {stored : Bool}

/-- The opened loan, and the price it was assessed at. -/
theorem acceptQuote_assessed (h : acceptQuote A host ctx q loanID nonce observed s = .ok s') :
    ∃ owner l, s'.loans[loanID]? = some l ∧
      updateRisk (q.loan loanID owner ctx.now) (s.observing observed).price.xrpUSDE6 ctx.now =
        .ok l := by
  unfold acceptQuote at h
  simp only [bind_eq_ok, rejectIf_eq_ok, consumeNonce_eq_ok] at h
  obtain ⟨_, _, s₀, hprice, _, _, a, ⟨_, rfl⟩, _, _, _, _, _, _, _, _, s₁, halloc, loan, hrisk,
    _, _, hs'⟩ := h
  obtain rfl := observePrice_observing hprice
  have hprice₁ : s₁.price = (s.observing observed).price := by
    rw [(allocateTranches_ok halloc).frame]
  rw [hprice₁] at hrisk
  refine ⟨_, loan, ?_, hrisk⟩
  obtain rfl := Except.ok.inj hs'
  simp [putLoan_get]

/-- The LTV of a loan is the floored ratio, where there is one. -/
theorem loanLTV_le_iff {l l' : Loan} {priceE6 : UInt64} {now : Int}
    (h : updateRisk l priceE6 now = .ok l') :
    (∃ ltv, loanLTV l' priceE6 = .ok ltv ∧ ltv ≤ 5000) ↔
      0 < l.worth priceE6 ∧ l.outstanding * bps.toNat / l.worth priceE6 ≤ 5000 := by
  have hsame : loanLTV l' priceE6 = loanLTV l priceE6 := by
    rw [(updateRisk_writes h).1]
    rfl
  unfold updateRisk at h
  simp only [bind_eq_ok] at h
  obtain ⟨value, hvalue, d, hd, _⟩ := h
  have hratio : loanLTV l priceE6 = mulDiv [d, bps] value false := by
    unfold loanLTV
    rw [hvalue, ok_bind, hd, ok_bind]
  rw [hsame, hratio, ← worth_toNat hvalue, ← debt_eq_outstanding hd]
  constructor
  · rintro ⟨ltv, hltv, hle⟩
    obtain ⟨hpos, hltvNat⟩ := mulDiv_eq_ok hltv
    rw [prod_two] at hltvNat
    rw [← hltvNat]
    exact ⟨toNat_pos_of_ne_zero hpos, UInt64.le_iff_toNat_le.mp hle⟩
  · rintro ⟨hpos, hle⟩
    have hne : value ≠ 0 := fun h0 => by simp [h0] at hpos
    obtain ⟨ltv, hltv⟩ : ∃ ltv, mulDiv [d, bps] value false = .ok ltv :=
      ⟨_, mulDiv_ok hne (by rw [prod_two]; omega)⟩
    refine ⟨ltv, hltv, UInt64.le_iff_toNat_le.mpr ?_⟩
    rw [(mulDiv_eq_ok hltv).2, prod_two]
    exact hle

/-- Within the limit and in time a loan is healthy or restricted. -/
theorem status_within {l l' : Loan} {priceE6 : UInt64} {now : Int}
    (h : updateRisk l priceE6 now = .ok l') (hpos : 0 < l.worth priceE6)
    (hle : l.outstanding * bps.toNat / l.worth priceE6 ≤ 5000) (htime : now ≤ l.graceEnd) :
    l'.status = .healthy ∨ l'.status = .restricted := by
  rw [updateRisk_status h]
  have hbelow : ∀ n, 5000 < n → ¬ n * l.worth priceE6 ≤ l.outstanding * bps.toNat := by
    intro n hn hreached
    have := (Nat.le_div_iff_mul_le hpos).mpr hreached
    omega
  by_cases hdust : l.worth priceE6 ≠ 0 ∧ l.outstanding * bps.toNat < l.worth priceE6
  · exact Or.inl (if_pos hdust)
  · rw [if_neg hdust]
    unfold lawStatus
    rw [if_neg, if_neg (hbelow 5500 (by decide))]
    · split
      · exact Or.inr rfl
      · exact Or.inl rfl
    · rintro (hzero | hlate | hhigh)
      · omega
      · omega
      · exact hbelow 6500 (by decide) hhigh

/-- A fresh loan is not late. -/
theorem loan_graceEnd {owner : String} {now : Int} (h : q.TermInRange now) :
    now ≤ (q.loan loanID owner now).graceEnd := by
  obtain ⟨⟨hlow, _⟩, _, hhigh⟩ := h
  have hmatures : int64 (now + q.termDays.toNat * 86400) = now + q.termDays.toNat * 86400 :=
    int64_of_range (by omega) (by omega)
  simp only [Loan.graceEnd, Quote.loan]
  rw [hmatures, int64_of_range (by omega) (by omega)]
  omega

/-- A fresh loan is within the limit where its collateral is worth enough. -/
theorem startsWithinLimit_of_worth {owner : String} {now : Int} {l : Loan} {priceE6 : UInt64}
    (hclock : q.TermInRange now) (h : updateRisk (q.loan loanID owner now) priceE6 now = .ok l)
    (henough : scale.toNat * (q.amount.toNat * bps.toNat / 5001 + 1) ≤
      q.collateralFXRP.toNat * priceE6.toNat) : StartsWithinLimit l priceE6 := by
  have hunit : 0 < scale.toNat := by decide
  have hworth : (q.loan loanID owner now).worth priceE6 =
      q.collateralFXRP.toNat * priceE6.toNat / scale.toNat := rfl
  have howed : (q.loan loanID owner now).outstanding = q.amount.toNat := by
    simp [Loan.outstanding, Quote.loan]
  rw [Nat.mul_comm scale.toNat, ← Nat.le_div_iff_mul_le hunit, ← hworth] at henough
  have hpos : 0 < (q.loan loanID owner now).worth priceE6 := by omega
  have hle := (ratio_le_iff hpos).mpr henough
  rw [← howed] at hle
  exact ⟨(loanLTV_le_iff h).mpr ⟨hpos, hle⟩, status_within h hpos hle (loan_graceEnd hclock)⟩

/-- **A loan whose quote keeps the limit starts within it**, and a quote that does not keep it is for
a part of a request above the limit, which the rounding of its LTV let pass. -/
theorem initial_limit_kept (hclock : q.TermInRange ctx.now)
    (h : step A host s (.operate ctx stored (.acceptQuote q loanID nonce observed)) = .ok s') :
    ∃ l, s'.loans[loanID]? = some l ∧
      (KeepsInitialLimit q (s.observing observed).price.xrpUSDE6 →
        StartsWithinLimit l (s.observing observed).price.xrpUSDE6) ∧
      (¬ KeepsInitialLimit q (s.observing observed).price.xrpUSDE6 →
        q.amount < q.request.amount ∧
          PassesByRounding q (s.observing observed).price.xrpUSDE6) := by
  obtain ⟨_, _, next, hbody, rfl⟩ := Operation.apply_ok h
  obtain ⟨owner, l, hl, hrisk⟩ := acceptQuote_assessed hbody
  obtain ⟨fresh, hfresh, htells⟩ := acceptQuote_fresh hbody
  have hamount : fresh.amount = q.amount := by
    rw [← htells]
    rfl
  have hcoll : fresh.collateralFXRP = q.collateralFXRP := by
    rw [← htells]
    rfl
  refine ⟨l, hl, ?_, ?_⟩
  · intro hkeeps
    have hworth := share_worth hfresh
    rw [hamount, hcoll] at hworth
    exact startsWithinLimit_of_worth hclock hrisk (hworth hkeeps)
  · intro hnot
    obtain ⟨hpart, habove⟩ := not_or.mp hnot
    have hfunded := (quote_ok hfresh).2.1
    rw [hamount] at hfunded
    refine ⟨?_, Nat.lt_of_not_le habove, ?_⟩
    · exact UInt64.lt_of_le_of_ne (UInt64.le_iff_toNat_le.mpr hfunded) hpart
    · exact (admitted_of_ok hfresh).ltv

end Start

/-! ### A share that is not -/

/-- One unit of a request for 5001 is funded, against one share of its collateral. -/
def sampleShare : Quote :=
  { requestID := "q1", borrower := "0xa", amount := 1, requestedAmount := 5001, termDays := 7,
    collateralFXRP := 2, requestedCollateralFXRP := 10002, isPartial := true,
    lenderAPRBPS := 800, borrowerAPRBPS := 850, maxAPRBPS := 1000,
    tranches := [{ mandateID := "m", lender := "0xc", principal := 1, aprBPS := 800 }],
    expiresAt := 2000, priceE6 := 999950 }

def shareFunded : List Operation := [
  .deposit "0xa" "FXRP" 10002 "d1",
  .deposit "0xc" "USDT0" 1 "d2",
  .setMandate "0xc" "m" 1 800 7 1 0]

def shareAccepted : Operation :=
  .acceptQuote sampleShare "x" 0 (some { xrpUSDE6 := 999950, updatedAt := 1000 })

def shareLoan : Loan where
  id := "x"
  borrower := "0xa"
  principal := 1
  collateralFXRP := 2
  borrowerAPRBPS := 850
  termDays := 7
  startedAt := 1000
  maturesAt := 605800
  lastAccruedAt := 1000
  tranches := sampleShare.tranches
  status := .liquidatable
  lastHealthFactorBPS := 6500
  liquidationPriceE6 := 769230

/-- Its loan is liquidatable from the start. -/
theorem shareAccepted_exceeds : ∃ s',
    step .wrapping sampleHost (ledgerAfter .wrapping sampleHost
      (settledCalls .wrapping sampleHost newState shareFunded)) (sampleCall shareAccepted) =
        .ok s' ∧
    s'.loans["x"]? = some shareLoan ∧ loanLTV shareLoan 999950 = .ok 10000 ∧
    ¬ StartsWithinLimit shareLoan 999950 := by
  have hopened : (step .wrapping sampleHost (settledState .wrapping sampleHost newState shareFunded)
      (sampleCall shareAccepted)).toOption.bind (fun s' => s'.loans["x"]?) = some shareLoan := by
    decide +kernel
  unfold ledgerAfter
  rw [run_settledCalls]
  cases hstep : step .wrapping sampleHost
      (settledState .wrapping sampleHost newState shareFunded) (sampleCall shareAccepted) with
  | error e => simp [hstep, Except.toOption] at hopened
  | ok s' =>
      refine ⟨s', rfl, by simpa [hstep, Except.toOption] using hopened, by decide +kernel, ?_⟩
      rintro ⟨_, hhealthy | hrestricted⟩
      · exact absurd hhealthy (by decide)
      · exact absurd hrestricted (by decide)

/-- The quote of `lending` is funded in full. -/
theorem initial_limit_kept_full : ∃ s' l,
    step .wrapping sampleHost (ledgerAfter .wrapping sampleHost
      (settledCalls .wrapping sampleHost newState (lending.take 3)))
      (sampleCall (.acceptQuote (sampleQuote "q1" "0xa") "x" 0
        (some { xrpUSDE6 := 2000000, updatedAt := 1000 }))) = .ok s' ∧
    s'.loans["x"]? = some l ∧ StartsWithinLimit l 2000000 := by
  have haccepted : (step .wrapping sampleHost
      (settledState .wrapping sampleHost newState (lending.take 3))
      (sampleCall (.acceptQuote (sampleQuote "q1" "0xa") "x" 0
        (some { xrpUSDE6 := 2000000, updatedAt := 1000 })))).toBool = true := by
    decide +kernel
  unfold ledgerAfter
  rw [run_settledCalls]
  cases hstep : step .wrapping sampleHost
      (settledState .wrapping sampleHost newState (lending.take 3))
      (sampleCall (.acceptQuote (sampleQuote "q1" "0xa") "x" 0
        (some { xrpUSDE6 := 2000000, updatedAt := 1000 }))) with
  | error e => simp [hstep, Except.toBool] at haccepted
  | ok s' =>
      obtain ⟨l, hl, hkept, _⟩ := initial_limit_kept ⟨by decide, by decide⟩ hstep
      exact ⟨s', l, rfl, hl, hkept (Or.inl rfl)⟩

end QuietLine
