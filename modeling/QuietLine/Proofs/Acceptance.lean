/-
An unchanged market honours its quotes (`QuoteAtPrice`, `AcceptQuote`, `sameQuote`).

`AcceptQuote` quotes again and compares.  Between the two runs Go may enumerate the
mandates in another order, the price has moved, and the caller may write the address in
other letters.  None of this reaches the terms: sorting leaves one list of eligible
mandates (`eligibleMandates_unique`), and after the checks the price only labels the quote
(`quoteTerms_reprice`).

The comparator breaks ties by a digest.  Where two mandates had the same digest their order
would be the map's, so the digests hashed are taken not to collide.
-/
import QuietLine.Proofs.Matching

namespace QuietLine

open Outcome

/-! ### One order of the eligible mandates -/

/-- The comparator's digests tell the mandates on file apart. -/
def TieBreaksApart (host : Host) (s : State) (requestID : String) : Prop :=
  ∀ id ∈ s.mandates.keys, ∀ id' ∈ s.mandates.keys,
    host.sha256 (Bytes.utf8 (id ++ requestID)) = host.sha256 (Bytes.utf8 (id' ++ requestID)) →
    Bytes.utf8 (id ++ requestID) = Bytes.utf8 (id' ++ requestID)

section Order

variable {host : Host} {range range' : RangeOrder} {s s' : State} {req : QuoteRequest}

theorem append_right_cancel {a b c : String} (h : a ++ c = b ++ c) : a = b := by
  have hlists := congrArg String.toList h
  simp only [String.toList_append, List.append_cancel_right_eq] at hlists
  exact String.toList_inj.mp hlists

/-- Mandates that may stand either way round are one. -/
theorem matchesBefore_antisymm
    (hids : ∀ (id : String) (m : Mandate), s.mandates[id]? = some m → m.id = id)
    (hapart : TieBreaksApart host s req.id) {m m' : Mandate}
    (hm : m ∈ eligibleMandates host range s req) (hm' : m' ∈ eligibleMandates host range' s req)
    (h : matchesBefore host req m m') (h' : matchesBefore host req m' m) : m = m' := by
  obtain ⟨⟨id, hget⟩, _⟩ := mem_eligibleMandates.mp hm
  obtain ⟨⟨id', hget'⟩, _⟩ := mem_eligibleMandates.mp hm'
  obtain ⟨hrate, hle⟩ : m.minAPRBPS = m'.minAPRBPS ∧ tieBreak host req m ≤ tieBreak host req m' := by
    rcases matchesBefore_iff.mp h with hlt | heq
    · have := matchesBefore_rate h'
      omega
    · exact heq
  have hle' : tieBreak host req m' ≤ tieBreak host req m := by
    rcases matchesBefore_iff.mp h' with hlt | heq
    · rw [hrate] at hlt
      omega
    · exact heq.2
  have hdigest := List.Vector.toList_injective (List.le_antisymm hle hle')
  have hkey : ∀ {id : String} {m : Mandate}, s.mandates[id]? = some m → id ∈ s.mandates.keys := by
    intro id m hget
    rw [Std.ExtTreeMap.mem_keys, Std.ExtTreeMap.mem_iff_isSome_getElem?, hget]
    rfl
  rw [hids id m hget, hids id' m' hget'] at hdigest
  have hsame := hapart id (hkey hget) id' (hkey hget') hdigest
  rw [append_right_cancel (Bytes.utf8_inj hsame), hget'] at hget
  exact (Option.some.inj hget).symm

/-- **The eligible mandates come in one order**, however the map is enumerated. -/
theorem eligibleMandates_unique
    (hids : ∀ (id : String) (m : Mandate), s.mandates[id]? = some m → m.id = id)
    (hapart : TieBreaksApart host s req.id) :
    eligibleMandates host range s req = eligibleMandates host range' s req := by
  have hrange : (s.rangeMandates range).Perm (s.rangeMandates range') :=
    ((range.perm _).trans (range'.perm _).symm).filterMap _
  have hperm : (eligibleMandates host range s req).Perm (eligibleMandates host range' s req) :=
    (List.perm_insertionSort _ _).trans ((hrange.filter _).trans
      (List.perm_insertionSort _ _).symm)
  refine hperm.eq_of_pairwise ?_ (List.pairwise_insertionSort (matchesBefore host req) _)
    (List.pairwise_insertionSort _ _)
  intro m m' hm hm' h h'
  exact matchesBefore_antisymm hids hapart hm hm' h h'

/-- They are read off the mandates alone, and the request's id, term and maximum. -/
theorem eligibleMandates_mandates (h : s'.mandates = s.mandates) (borrower : String) :
    eligibleMandates host range s' { req with borrower } = eligibleMandates host range s req := by
  unfold eligibleMandates State.rangeMandates
  rw [h]
  rfl

end Order

/-! ### The same terms at another price -/

/-- The LTV test of `quote`, as it is computed. -/
def WithinLimit (req : QuoteRequest) (priceE6 : UInt64) : Prop :=
  ∃ value ltv, mulDiv [req.collateralFXRP, priceE6] scale false = .ok value ∧
    mulDiv [req.amount, bps] value false = .ok ltv ∧ ¬ (value = 0 ∨ ltv > 5000)

/-- The state `AcceptQuote` quotes on. -/
def State.observing (s : State) (observed : Option Price) : State :=
  { s with price := observed.getD s.price }

/-- An acceptance at `now` of a quote on `req` that is in time, at a valid fresh price at which the
requested amount is within the limit. -/
structure Timely (s : State) (req : QuoteRequest) (observed : Option Price) (now : Int) : Prop where
  unexpired : now < req.expiresAt
  usable : ∀ price, observed = some price → price.isUnusable now = false
  price : (s.observing observed).price.xrpUSDE6 ≠ 0
  fresh : int64 (now - (s.observing observed).price.updatedAt) ≤ 300
  limit : WithinLimit req (s.observing observed).price.xrpUSDE6

section Terms

variable {host : Host} {s s' : State} {req : QuoteRequest} {observed : Option Price} {now now' : Int}

/-- What was quoted is admitted again. -/
theorem Admitted.again (h : Admitted s req now) (ht : Timely s' req observed now')
    (borrower : String) : Admitted (s'.observing observed) { req with borrower } now' := by
  obtain ⟨value, ltv, hvalue, hltv, hlow⟩ := ht.limit
  obtain ⟨hpos, hlow⟩ := not_or.mp hlow
  have hvalueNat := (mulDiv_eq_ok hvalue).2
  have hltvNat := (mulDiv_eq_ok hltv).2
  rw [prod_two] at hvalueNat hltvNat
  refine ⟨h.amount, h.collateral, h.term, h.rate, ht.unexpired, ht.price, ht.fresh, ?_, ?_, ?_⟩
  · rw [← hvalueNat]
    exact value.toNat_lt
  · rw [← hvalueNat]
    exact (toNat_pos_of_ne_zero hpos).ne'
  · rw [← hvalueNat, ← hltvNat]
    exact UInt64.le_iff_toNat_le.mp (UInt64.not_lt.mp hlow)

/-- The price and the borrower's letters are the only trace of a second run. -/
theorem quoteTerms_reprice {price price' : UInt64} {filled : List Tranche × UInt64} {q : Quote}
    (h : quoteTerms req price filled = .ok q) (borrower : String) :
    quoteTerms { req with borrower } price' filled =
      .ok { q with borrower := toLower borrower, priceE6 := price' } := by
  unfold quoteTerms at h ⊢
  simp only [bind_eq_ok] at h ⊢
  obtain ⟨_, hfunded, apr, hapr, _, hmax, coll, hcoll, hq⟩ := h
  refine ⟨_, hfunded, apr, hapr, _, hmax, coll, hcoll, ?_⟩
  cases hq
  rfl

/-- A quote names what was requested. -/
theorem quoteTerms_requested {price : UInt64} {filled : List Tranche × UInt64} {q : Quote}
    (h : quoteTerms req price filled = .ok q) :
    q.requestID = req.id ∧ q.borrower = toLower req.borrower ∧ q.requestedAmount = req.amount ∧
      q.termDays = req.termDays ∧ q.requestedCollateralFXRP = req.collateralFXRP ∧
      q.maxAPRBPS = req.maxAPRBPS ∧ q.expiresAt = req.expiresAt := by
  unfold quoteTerms at h
  simp only [bind_eq_ok] at h
  obtain ⟨_, _, _, _, _, _, _, _, hq⟩ := h
  cases hq
  exact ⟨rfl, rfl, rfl, rfl, rfl, rfl, rfl⟩

/-- So the request `AcceptQuote` makes of it is the first one, under the caller's letters. -/
theorem request_of_quote (hadmitted : Admitted s req now) {price price' : UInt64}
    {filled : List Tranche × UInt64} {q : Quote} (h : quoteTerms req price filled = .ok q)
    (borrower : String) :
    ({ q with borrower, priceE6 := price' } : Quote).request = { req with borrower } := by
  obtain ⟨hid, _, hamount, hterm, hcoll, hmax, hexpires⟩ := quoteTerms_requested h
  have hamount' := hadmitted.amount
  have hcoll' := hadmitted.collateral
  simp [Quote.request, Quote.withDefaults, hid, hamount, hterm, hcoll, hmax, hexpires, hamount',
    hcoll']

/-- The comparison looks past the price and the letters. -/
theorem sameQuote_reprice (hadmitted : Admitted s req now) {price price' price'' : UInt64}
    {filled : List Tranche × UInt64} {q : Quote} (h : quoteTerms req price filled = .ok q)
    (borrower : String) :
    sameQuote { q with borrower := toLower borrower, priceE6 := price' }
      { q with borrower, priceE6 := price'' } = true := by
  obtain ⟨_, _, hamount, _, hcoll, _⟩ := quoteTerms_requested h
  have hamount' := hadmitted.amount
  have hcoll' := hadmitted.collateral
  rw [← hamount] at hamount'
  rw [← hcoll] at hcoll'
  simp [sameQuote, Quote.withDefaults, hamount', hcoll']

/-- The second run quotes the same. -/
theorem quote_again (hids : ∀ (id : String) (m : Mandate), s.mandates[id]? = some m → m.id = id)
    (hapart : TieBreaksApart host s req.id) (hmandates : s'.mandates = s.mandates)
    {range range' : RangeOrder} {q : Quote} (hq : quote host range s req now = .ok q)
    (ht : Timely s' req observed now') (borrower : String) :
    quote host range' (s'.observing observed) { req with borrower } now' =
      .ok { q with
        borrower := toLower borrower, priceE6 := (s'.observing observed).price.xrpUSDE6 } := by
  have hadmitted := admitted_of_ok hq
  rw [quote_admitted hadmitted] at hq
  have heligible : eligibleMandates host range' (s'.observing observed) { req with borrower } =
      eligibleMandates host range s req :=
    (eligibleMandates_mandates (s := s) hmandates borrower).trans
      (eligibleMandates_unique hids hapart)
  rw [quote_admitted (hadmitted.again ht borrower), heligible]
  exact quoteTerms_reprice hq borrower

end Terms

/-! ### Accepting it -/

section Errors

variable {A : Arith}

theorem updateRisk_error {l : Loan} {price : UInt64} {now : Int} {e : LedgerError}
    (h : updateRisk l price now = .error e) : e = .divisionByZero ∨ e = .arithmeticOverflow := by
  have hmul : ∀ values denominators, Post (mulDivBy values denominators false) (fun _ => True)
      fun e => e = LedgerError.divisionByZero ∨ e = .arithmeticOverflow :=
    fun _ _ => Post.of_forall (fun _ _ => trivial) fun _ he => mulDivBy_error he
  have hpost : Post (updateRisk l price now) (fun _ => True)
      fun e => e = LedgerError.divisionByZero ∨ e = .arithmeticOverflow := by
    unfold updateRisk
    refine Post.bind (hmul _ _) fun value _ => ?_
    refine Post.bind (R := fun _ => True)
      (Post.of_forall (fun _ _ => trivial) fun _ he => Or.inr (checkedAdd_error he)) fun d _ => ?_
    by_cases hvalue : value = 0
    · rw [if_pos hvalue]
      exact Post.pure trivial
    · rw [if_neg hvalue]
      refine Post.bind (hmul _ _) fun ltv _ => ?_
      by_cases hltv : ltv = 0
      · rw [if_pos hltv]
        exact Post.pure trivial
      · rw [if_neg hltv]
        exact Post.bind (hmul _ _) fun _ _ => Post.bind (hmul _ _) fun _ _ => Post.pure trivial
  exact hpost.of_error h

/-- The loop of `AcceptQuote` finds every tranche on file, where the mandates are distinct. -/
theorem allocateTranches_served {ts : List Tranche} {s : State}
    (hon : ∀ t ∈ ts, ∃ m, s.mandates[t.mandateID]? = some m ∧ t.principal ≤ m.available)
    (hnodup : (ts.map Tranche.mandateID).Nodup) :
    Post (ts.foldlM (allocateTranche A) s) (fun _ => True) (· ≠ .liquidityChanged) := by
  induction ts generalizing s with
  | nil => exact Post.ok trivial
  | cons t rest ih =>
      obtain ⟨m, hm, hle⟩ := hon t List.mem_cons_self
      obtain ⟨hfresh, hrest⟩ := List.nodup_cons.mp hnodup
      rw [List.foldlM_cons]
      refine Post.bind (R := fun s₁ => ∃ m₁, s₁ = s.putMandate t.mandateID m₁) ?_ ?_
      · unfold allocateTranche
        rw [hm]
        refine Post.orElse (fun hnone => by cases hnone) fun m' hm' => ?_
        obtain rfl := Option.some.inj hm'
        refine Post.rejectIf (fun hlt => absurd hle (UInt64.not_le.mpr hlt)) fun _ => ?_
        refine Post.bind (R := fun _ => True) (Post.of_forall (fun _ _ => trivial) fun e he => ?_)
          fun _ _ => ?_
        · simp [Arith.sub_error he]
        refine Post.bind (R := fun _ => True) (Post.of_forall (fun _ _ => trivial) fun e he => ?_)
          fun _ _ => Post.pure ⟨_, rfl⟩
        simp [Arith.add_error he]
      · rintro _ ⟨m₁, rfl⟩
        refine ih (fun t' ht' => ?_) hrest
        have hne : t.mandateID ≠ t'.mandateID := fun heq =>
          hfresh (heq ▸ List.mem_map_of_mem ht')
        obtain ⟨m', hm', hle'⟩ := hon t' (List.mem_cons_of_mem _ ht')
        refine ⟨m', ?_, hle'⟩
        rw [putMandate_get, if_neg hne]
        exact hm'

end Errors

section Accept

variable {A : Arith} {host : Host} {ctx : Context} {s s' : State} {q : Quote} {loanID : String}
  {nonce : Nat} {observed : Option Price} {stored : Bool}

theorem observePrice_observing {now : Int} (h : observePrice observed now s = .ok s') :
    s' = s.observing observed := by
  cases observed with
  | none => exact (Except.ok.inj h).symm
  | some price =>
      simp only [observePrice, bind_eq_ok, rejectIf_eq_ok] at h
      obtain ⟨_, _, h⟩ := h
      exact (Except.ok.inj h).symm

/-- Where the quote is confirmed and its tranches are on file, no step of `AcceptQuote` finds the
liquidity changed. -/
theorem acceptQuote_served (hsame : requireSameQuote host ctx (s.observing observed) q = .ok ())
    (hon : ∀ t ∈ q.tranches, ∃ m, s.mandates[t.mandateID]? = some m ∧ t.principal ≤ m.available)
    (hnodup : (q.tranches.map Tranche.mandateID).Nodup) :
    Post (acceptQuote A host ctx q loanID nonce observed s) (fun _ => True)
      (· ≠ .liquidityChanged) := by
  have hadd : ∀ a b, Post (A.add a b) (fun _ => True) (· ≠ .liquidityChanged) :=
    fun _ _ => Post.of_forall (fun _ _ => trivial) fun e he => by simp [Arith.add_error he]
  have hsub : ∀ a b, Post (A.sub a b) (fun _ => True) (· ≠ .liquidityChanged) :=
    fun _ _ => Post.of_forall (fun _ _ => trivial) fun e he => by simp [Arith.sub_error he]
  unfold acceptQuote
  refine Post.rejectIf (by simp) fun _ => ?_
  have hobserve : Post (observePrice observed ctx.now s) (· = s.observing observed)
      (· ≠ .liquidityChanged) := by
    refine Post.of_forall (fun _ h => observePrice_observing h) fun e he => ?_
    cases observed with
    | none => cases he
    | some price =>
        have hpost : Post (observePrice (some price) ctx.now s) (fun _ => True)
            (· ≠ .liquidityChanged) := Post.rejectIf (by simp) fun _ => Post.pure trivial
        exact hpost.of_error he
  refine Post.bind hobserve ?_
  rintro _ rfl
  rw [hsame, ok_bind]
  refine Post.bind (R := fun _ => True) (Post.rejectIf (by simp) fun _ => Post.pure trivial)
    fun a _ => ?_
  refine Post.rejectIf (by simp) fun _ => ?_
  refine Post.rejectIf (by simp) fun _ => ?_
  refine Post.bind (hsub _ _) fun available _ => Post.bind (hadd _ _) fun reserved _ => ?_
  refine Post.bind (allocateTranches_served hon hnodup) fun s₁ _ => ?_
  refine Post.bind (R := fun _ => True) (Post.of_forall (fun _ _ => trivial) fun e he => ?_)
    fun loan _ => ?_
  · rcases updateRisk_error he with rfl | rfl <;> simp
  refine Post.bind (R := fun _ => True) (Post.of_forall (fun _ _ => trivial) fun e he => ?_)
    fun activeDebt _ => Post.pure trivial
  simp [checkedAdd_error he]

/-- The loan an acceptance leaves is the quote's. -/
theorem acceptQuote_loan (h : acceptQuote A host ctx q loanID nonce observed s = .ok s') :
    ∃ l, s'.loans[loanID]? = some l ∧ l.principal = q.amount ∧
      l.collateralFXRP = q.collateralFXRP ∧ l.borrowerAPRBPS = q.borrowerAPRBPS ∧
      l.tranches = q.tranches := by
  obtain ⟨_, _, _, _, fxrp', s₁, l, activeDebt, price, _, _, _, hterms, _, _, rfl⟩ :=
    acceptQuote_ok h
  refine ⟨l, ?_, hterms.principal, hterms.collateralFXRP, hterms.borrowerAPRBPS, hterms.tranches⟩
  simp [putLoan_get]

/-- `q` is `fresh` but for the price, the letters of the address and the requested fields it leaves
out. -/
def Quote.Tells (q fresh : Quote) : Prop :=
  { q.withDefaults with borrower := toLower q.borrower, priceE6 := fresh.priceE6 } = fresh

theorem tells_of_sameQuote {fresh : Quote} (hlower : toLower fresh.borrower = fresh.borrower)
    (h : sameQuote fresh q = true) : q.Tells fresh := by
  have heq := of_decide_eq_true h
  rw [hlower] at heq
  exact heq.symm

/-- What is accepted was quoted afresh. -/
theorem acceptQuote_fresh (h : acceptQuote A host ctx q loanID nonce observed s = .ok s') :
    ∃ fresh, quote host ctx.range (s.observing observed) q.request ctx.now = .ok fresh ∧
      q.Tells fresh := by
  unfold acceptQuote at h
  simp only [bind_eq_ok] at h
  obtain ⟨_, _, s₀, hprice, _, hsame, _⟩ := h
  obtain rfl := observePrice_observing hprice
  unfold requireSameQuote at hsame
  simp only [bind_eq_ok, answering_eq_ok, rejectIf_eq_ok, Bool.not_eq_false] at hsame
  obtain ⟨fresh, hfresh, hsame⟩ := hsame
  refine ⟨fresh, hfresh, tells_of_sameQuote ?_ hsame⟩
  have hterms := hfresh
  rw [quote_admitted (admitted_of_ok hfresh)] at hterms
  obtain ⟨_, hborrower, _⟩ := quoteTerms_requested hterms
  rw [hborrower, toLower_toLower]

/-- At the price on file `QuoteAtPrice` is `Quote`. -/
theorem quoteAtPrice_own {range : RangeOrder} {req : QuoteRequest} {now : Int}
    (h : s.price.isUnusable now = false) :
    quoteAtPrice host range s req s.price now = quote host range s req now := by
  unfold quoteAtPrice
  rw [rejectIf_of_not (by simp [h]), ok_bind]

/-- An acceptance of a quoted `q` is confirmed by the second run. -/
theorem requireSameQuote_again
    (hids : ∀ (id : String) (m : Mandate), s.mandates[id]? = some m → m.id = id)
    {req : QuoteRequest} {now : Int} {range : RangeOrder}
    (hapart : TieBreaksApart host s req.id) (hmandates : s'.mandates = s.mandates)
    (hq : quote host range s req now = .ok q) (ht : Timely s' req observed ctx.now)
    (borrower : String) (priceE6 : UInt64) :
    requireSameQuote host ctx (s'.observing observed) { q with borrower, priceE6 } = .ok () := by
  have hadmitted := admitted_of_ok hq
  have hterms := hq
  rw [quote_admitted hadmitted] at hterms
  unfold requireSameQuote
  rw [request_of_quote hadmitted hterms, quote_again hids hapart hmandates hq ht]
  simp only [answering, ok_bind]
  exact rejectIf_of_not (by simp [sameQuote_reprice hadmitted hterms])

/-- **An unchanged market honours its quotes**: whatever address, price and order the acceptance
comes with, it does not find the liquidity changed and opens the loan that was quoted.
Conversely nothing but what `quote` computes at that moment is accepted. -/
theorem quotes_honoured (A : Arith)
    (hids : ∀ (id : String) (m : Mandate), s.mandates[id]? = some m → m.id = id) :
    (∀ range req price now q, TieBreaksApart host s req.id →
      quoteAtPrice host range s req price now = .ok q →
      ∀ s' ctx observed, s'.mandates = s.mandates → Timely s' req observed ctx.now →
      ∀ borrower priceE6 loanID nonce stored,
        step A host s' (.operate ctx stored
          (.acceptQuote { q with borrower, priceE6 } loanID nonce observed)) ≠
            .error .liquidityChanged ∧
        ∀ s'', step A host s' (.operate ctx stored
          (.acceptQuote { q with borrower, priceE6 } loanID nonce observed)) = .ok s'' →
          ∃ l, s''.loans[loanID]? = some l ∧ l.principal = q.amount ∧
            l.collateralFXRP = q.collateralFXRP ∧ l.borrowerAPRBPS = q.borrowerAPRBPS ∧
            l.tranches = q.tranches) ∧
    (∀ ctx q loanID nonce observed stored s',
      step A host s (.operate ctx stored (.acceptQuote q loanID nonce observed)) = .ok s' →
      ∃ fresh, quote host ctx.range (s.observing observed) q.request ctx.now = .ok fresh ∧
        q.Tells fresh ∧ (TieBreaksApart host s q.requestID →
          ∀ range, quote host range (s.observing observed) q.request ctx.now = .ok fresh)) := by
  constructor
  · intro range req price now q hapart hquoted s' ctx observed hmandates ht borrower priceE6
      loanID nonce stored
    unfold quoteAtPrice at hquoted
    simp only [bind_eq_ok] at hquoted
    obtain ⟨_, _, hq⟩ := hquoted
    obtain ⟨_, _, hsub, hdrawn⟩ := quote_ok hq
    have hsame := requireSameQuote_again (s := { s with price }) hids hapart hmandates hq ht
      borrower priceE6
    have hnodup := (eligibleMandates_nodup (s := { s with price }) hids).sublist hsub
    have hon : ∀ t ∈ q.tranches,
        ∃ m, s'.mandates[t.mandateID]? = some m ∧ t.principal ≤ m.available := by
      intro t ht
      obtain ⟨m, hmem, hd⟩ := hdrawn t ht
      obtain ⟨⟨id, hm⟩, _⟩ := mem_eligibleMandates.mp hmem
      refine ⟨m, ?_, UInt64.le_iff_toNat_le.mpr hd.within_available⟩
      rw [hmandates, hd.id, hids id m hm]
      exact hm
    constructor
    · have hserved : Post (step A host s' (.operate ctx stored
          (.acceptQuote { q with borrower, priceE6 } loanID nonce observed))) (fun _ => True)
          (· ≠ .liquidityChanged) := by
        refine Post.bind (R := fun _ => True) (Post.ok trivial) fun _ _ => ?_
        refine Post.rejectIf (by simp) fun _ => ?_
        refine Post.bind (acceptQuote_served hsame hon hnodup) fun next _ => ?_
        exact Post.rejectIf (by simp) fun _ => Post.pure trivial
      exact fun herror => hserved.of_error herror rfl
    · intro s'' hs''
      obtain ⟨_, _, next, hbody, rfl⟩ := Operation.apply_ok hs''
      obtain ⟨l, hl⟩ := acceptQuote_loan hbody
      exact ⟨l, hl⟩
  · intro ctx q loanID nonce observed stored s' hs'
    obtain ⟨_, _, next, hbody, rfl⟩ := Operation.apply_ok hs'
    obtain ⟨fresh, hfresh, htells⟩ := acceptQuote_fresh hbody
    refine ⟨fresh, hfresh, htells, fun hapart range => ?_⟩
    have hadmitted := admitted_of_ok hfresh
    have hsame : eligibleMandates host range (s.observing observed) q.request =
        eligibleMandates host ctx.range (s.observing observed) q.request :=
      eligibleMandates_unique hids hapart
    rw [← hfresh, quote_admitted hadmitted, quote_admitted hadmitted, hsame]

end Accept

/-- A hundred seconds later, at a lower price. -/
def sampleLater : Context := { requestedAt := 1100, now := 1100, range := .sorted }

theorem sampleRequest_timely : Timely sampleMarket sampleRequest
    (some { xrpUSDE6 := 1900000, updatedAt := 1100 }) sampleLater.now where
  unexpired := by decide
  usable := by
    rintro _ ⟨⟩
    decide
  price := by decide
  fresh := by decide
  limit := ⟨17100000, 1461, by decide +kernel, by decide +kernel, by decide⟩

theorem sampleMarket_apart : TieBreaksApart sampleHost sampleMarket sampleRequest.id := by
  have hkeys : sampleMarket.mandates.keys = ["m1", "m2", "m3"] := by
    unfold sampleMarket ledgerAfter
    rw [run_settledCalls]
    decide +kernel
  unfold TieBreaksApart
  rw [hkeys]
  decide +kernel

/-- A quote of `sampleRequest`, which one of two mandates at the same rate serves, is honoured. -/
theorem quotes_honoured_tied : ∃ q,
    quoteAtPrice sampleHost .sorted sampleMarket sampleRequest sampleMarket.price 1000 = .ok q ∧
    step .wrapping sampleHost sampleMarket (.operate sampleLater true
      (.acceptQuote { q with borrower := "0xB", priceE6 := 7 } "y" 0
        (some { xrpUSDE6 := 1900000, updatedAt := 1100 }))) ≠ .error .liquidityChanged := by
  obtain ⟨q, hq, _⟩ := matching_sample
  have hquoted : quoteAtPrice sampleHost .sorted sampleMarket sampleRequest sampleMarket.price
      1000 = .ok q := by
    rw [quoteAtPrice_own (by decide)]
    exact hq
  exact ⟨q, hquoted, ((quotes_honoured .wrapping sampleMarket_listed.id).1 _ _ _ _ q
    sampleMarket_apart hquoted sampleMarket sampleLater _ rfl sampleRequest_timely "0xB" 7 "y" 0
    true).1⟩

end QuietLine
