/-
Who is credited what by a repayment.

A tranche may ask more than the borrower pays, since the borrower's rate is the
average of the tranches' rates and a spread.  What bounds the lenders together is the
average: each part is rounded down twice, and the parts of all tranches stay within
the interest.  So the distribution never runs out, and it can be said to the unit what
each mandate, each account and the reserve receive.
-/
import QuietLine.Proofs.Pointers

namespace QuietLine

open Outcome MapSum MapRel Std

/-! ### The part of a tranche -/

/-- What a tranche earns of the interest, rounded down twice. -/
def Loan.part (l : Loan) (interest : UInt64) (t : Tranche) : Nat :=
  interest.toNat * t.principal.toNat / l.principal.toNat * t.aprBPS.toNat / l.borrowerAPRBPS.toNat

/-- What the tranches `ts` earn. -/
def Loan.parts (l : Loan) (interest : UInt64) (ts : List Tranche) : Nat :=
  (ts.map (l.part interest)).sum

/-- The loan's own figures: its tranches add up to it, at rates that average below its own. -/
structure Loan.Funded (l : Loan) : Prop where
  positive : 0 < l.principal.toNat
  total : trancheTotal l.tranches = l.principal.toNat
  rate_pos : 0 < l.borrowerAPRBPS.toNat
  rate : weighted l.tranches ≤ l.principal.toNat * l.borrowerAPRBPS.toNat
  nodup : (l.tranches.map Tranche.mandateID).Nodup

theorem Loan.Formed.funded {s : State} {l : Loan} (h : l.Formed s) : l.Funded :=
  ⟨h.positive, h.total, h.rate_pos, h.rate, h.nodup⟩

section Parts

variable {l : Loan} {interest : UInt64}

theorem mul_part_le (l : Loan) (interest : UInt64) (t : Tranche) :
    l.principal.toNat * l.borrowerAPRBPS.toNat * l.part interest t ≤
      interest.toNat * (t.principal.toNat * t.aprBPS.toNat) := by
  have hshare := Nat.div_mul_le_self (interest.toNat * t.principal.toNat) l.principal.toNat
  have hpart := Nat.div_mul_le_self
    (interest.toNat * t.principal.toNat / l.principal.toNat * t.aprBPS.toNat) l.borrowerAPRBPS.toNat
  unfold Loan.part
  generalize interest.toNat * t.principal.toNat / l.principal.toNat = share at hshare hpart ⊢
  generalize share * t.aprBPS.toNat / l.borrowerAPRBPS.toNat = part at hpart ⊢
  calc l.principal.toNat * l.borrowerAPRBPS.toNat * part
      = part * l.borrowerAPRBPS.toNat * l.principal.toNat := by ring
    _ ≤ share * t.aprBPS.toNat * l.principal.toNat := Nat.mul_le_mul_right _ hpart
    _ = share * l.principal.toNat * t.aprBPS.toNat := by ring
    _ ≤ interest.toNat * t.principal.toNat * t.aprBPS.toNat := Nat.mul_le_mul_right _ hshare
    _ = interest.toNat * (t.principal.toNat * t.aprBPS.toNat) := by ring

theorem mul_parts_le (l : Loan) (interest : UInt64) (ts : List Tranche) :
    l.principal.toNat * l.borrowerAPRBPS.toNat * l.parts interest ts ≤
      interest.toNat * weighted ts := by
  induction ts with
  | nil => simp [Loan.parts]
  | cons t rest ih =>
      have hpart := mul_part_le l interest t
      unfold Loan.parts at ih ⊢
      rw [List.map_cons, List.sum_cons, weighted_cons, Nat.mul_add, Nat.mul_add]
      omega

/-- **The lenders share the interest**: whatever the rates of the tranches are. -/
theorem Loan.Funded.parts_le (h : l.Funded) (interest : UInt64) :
    l.parts interest l.tranches ≤ interest.toNat := by
  have hpos : 0 < l.principal.toNat * l.borrowerAPRBPS.toNat := Nat.mul_pos h.positive h.rate_pos
  refine Nat.le_of_mul_le_mul_left ?_ hpos
  calc l.principal.toNat * l.borrowerAPRBPS.toNat * l.parts interest l.tranches
      ≤ interest.toNat * weighted l.tranches := mul_parts_le l interest l.tranches
    _ ≤ interest.toNat * (l.principal.toNat * l.borrowerAPRBPS.toNat) :=
        Nat.mul_le_mul_left _ h.rate
    _ = l.principal.toNat * l.borrowerAPRBPS.toNat * interest.toNat := by ring

theorem part_le_parts {ts : List Tranche} {t : Tranche} (ht : t ∈ ts) :
    l.part interest t ≤ l.parts interest ts :=
  List.single_le_sum (by simp) _ (List.mem_map_of_mem ht)

theorem principal_le_total {ts : List Tranche} {t : Tranche} (ht : t ∈ ts) :
    t.principal.toNat ≤ trancheTotal ts :=
  List.single_le_sum (by simp) _ (List.mem_map_of_mem ht)

/-- Neither of the two divisions overflows. -/
theorem Loan.Funded.trancheInterest_ok (h : l.Funded) (interest : UInt64) {t : Tranche}
    (ht : t ∈ l.tranches) :
    ∃ li, trancheInterest l interest t = .ok li ∧ li.toNat = l.part interest t := by
  have hprincipal : t.principal.toNat ≤ l.principal.toNat := h.total ▸ principal_le_total ht
  have hpart : l.part interest t ≤ interest.toNat := (part_le_parts ht).trans (h.parts_le interest)
  have hshare : interest.toNat * t.principal.toNat / l.principal.toNat ≤ interest.toNat := by
    refine Nat.div_le_of_le_mul ?_
    rw [Nat.mul_comm l.principal.toNat]
    exact Nat.mul_le_mul_left _ hprincipal
  have hlt := interest.toNat_lt
  have hp : l.principal ≠ 0 := by
    rintro h0
    have := h.positive
    simp [h0] at this
  have hb : l.borrowerAPRBPS.toUInt64 ≠ 0 := by
    intro h0
    have := h.rate_pos
    have hto := congrArg UInt64.toNat h0
    simp at hto
    omega
  unfold trancheInterest
  rw [mulDiv_ok hp (by simpa using hshare.trans_lt hlt), ok_bind]
  refine ⟨_, mulDiv_ok hb ?_, ?_⟩
  · simp only [List.map_cons, List.map_nil, List.prod_cons, List.prod_nil, Nat.mul_one,
      UInt32.toNat_toUInt64]
    rw [UInt64.toNat_ofNat_of_lt' (hshare.trans_lt hlt)]
    exact hpart.trans_lt hlt
  · simp only [List.map_cons, List.map_nil, List.prod_cons, List.prod_nil, Nat.mul_one,
      UInt32.toNat_toUInt64]
    rw [UInt64.toNat_ofNat_of_lt' (hshare.trans_lt hlt), UInt64.toNat_ofNat_of_lt']
    · rfl
    · exact hpart.trans_lt hlt

end Parts

/-! ### One tranche -/

/-- `m'` is `m` after the tranche `t` and its interest came back: the principal becomes lendable
again while the mandate is active. -/
structure Mandate.PaidBack (t : Tranche) (part : Nat) (m m' : Mandate) : Prop where
  available : m'.available.toNat = m.available.toNat + if m.active then t.principal.toNat else 0
  allocated : m.allocatedPrincipal.toNat = m'.allocatedPrincipal.toNat + t.principal.toNat
  earned : m'.interestEarned.toNat = m.interestEarned.toNat + part
  others : m' = Mandate.retireIfEmpty { m with
    available := m'.available, allocatedPrincipal := m'.allocatedPrincipal
    interestEarned := m'.interestEarned }

/-- `a'` is `a` after `credited` was added to its USDT0 and `freed` of what was reserved left the
reserve. -/
structure Account.Received (credited freed : Nat) (a a' : Account) : Prop where
  available : a'.balances.usdt0.available.toNat = a.balances.usdt0.available.toNat + credited
  reserved : a.balances.usdt0.reserved.toNat = a'.balances.usdt0.reserved.toNat + freed
  others : a' = { a with balances := a.balances.set .usdt0 a'.balances.usdt0 }

theorem Account.Received.refl (a : Account) : a.Received 0 0 a := ⟨rfl, rfl, rfl⟩

theorem Account.Received.trans {a a' a'' : Account} {c f c' f' : Nat} (h : a.Received c f a')
    (h' : a'.Received c' f' a'') : a.Received (c + c') (f + f') a'' := by
  refine ⟨?_, ?_, ?_⟩
  · rw [h'.available, h.available, Nat.add_assoc]
  · rw [h.reserved, h'.reserved]
    omega
  · rw [h'.others, h.others]
    rfl

/-- The mandate of a tranche is there, and no longer active. -/
def State.cancelled (s : State) (t : Tranche) : Bool := s.mandates[t.mandateID]?.any fun m => !m.active

/-- What a tranche gives its lender to dispose of: the interest, and the principal when the mandate
is cancelled. -/
def State.freedBy (s : State) (t : Tranche) : Nat := if s.cancelled t then t.principal.toNat else 0

/-- The figure of those of the tranches `ts` that `key` lent. -/
def lentBy (key : String) (figure : Tranche → Nat) (ts : List Tranche) : Nat :=
  (ts.map fun t => if toLower t.lender = key then figure t else 0).sum

@[simp] theorem lentBy_nil (key : String) (figure : Tranche → Nat) : lentBy key figure [] = 0 := rfl

@[simp] theorem lentBy_cons (key : String) (figure : Tranche → Nat) (t : Tranche)
    (rest : List Tranche) : lentBy key figure (t :: rest) =
      (if toLower t.lender = key then figure t else 0) + lentBy key figure rest := rfl

section Rounds

variable {l : Loan} {interest : UInt64} {t : Tranche} {d d' : Distribution}

/-- What one round does. -/
structure RoundPaid (l : Loan) (interest : UInt64) (t : Tranche) (d d' : Distribution) : Prop where
  frame : d'.state =
    { d.state with accounts := d'.state.accounts, mandates := d'.state.mandates }
  mandate : ∃ m m', d.state.mandates[t.mandateID]? = some m ∧
    d'.state.mandates[t.mandateID]? = some m' ∧ m.PaidBack t (l.part interest t) m'
  otherMandates : ∀ id : String, id ≠ t.mandateID → d'.state.mandates[id]? = d.state.mandates[id]?
  account : ∀ key, (d.state.accountAt key).Received
    (lentBy key (fun t => l.part interest t + d.state.freedBy t) [t])
    (lentBy key d.state.freedBy [t]) (d'.state.accountAt key)
  returned : d'.principalReturned.toNat = d.principalReturned.toNat + t.principal.toNat
  distributed : d'.lenderInterestDistributed.toNat =
    d.lenderInterestDistributed.toNat + l.part interest t

theorem payTranche_paid {li : UInt64} (hli : trancheInterest l interest t = .ok li)
    (hpart : li.toNat = l.part interest t) (h : payTranche l interest d t = .ok d') :
    RoundPaid l interest t d d' := by
  unfold payTranche at h
  simp only [bind_eq_ok, orElse_eq_ok, withContext_eq_ok, checkedSub_eq_ok, checkedAdd_eq_ok] at h
  obtain ⟨li', hli', m, hm, allocated, halloc, returned, hret, credited, hcred, earned, hearned,
    principalReturned, hpr, distributed, hdist, hd'⟩ := h
  obtain rfl : li' = li := Except.ok.inj (hli'.symm.trans hli)
  obtain ⟨hkept, hfreed⟩ := returnPrincipal_ok hret
  have hcancelled : d.state.cancelled t = !m.active := by
    unfold State.cancelled
    rw [hm]
    rfl
  generalize hm' : Mandate.retireIfEmpty { m with
    available := returned.1, allocatedPrincipal := allocated, interestEarned := earned } = m' at hd'
  cases hd'
  rw [hpart] at hcred hearned hdist
  refine { frame := rfl
           mandate := ⟨m, m', hm, (putMandate_get _ _ _ _).trans (if_pos rfl), ?_⟩
           otherMandates := ?_, account := ?_, returned := hpr, distributed := hdist }
  · subst hm'
    refine ⟨?_, ?_, ?_, ?_⟩
    · rw [retireIfEmpty_available]
      cases hactive : m.active with
      | true => exact (hkept hactive).1
      | false => exact congrArg UInt64.toNat (hfreed hactive).1
    · rw [retireIfEmpty_allocated]
      show m.allocatedPrincipal.toNat = allocated.toNat + t.principal.toNat
      omega
    · rw [retireIfEmpty_earned]
      exact hearned
    · rw [retireIfEmpty_available, retireIfEmpty_allocated, retireIfEmpty_earned]
  · intro id hid
    rw [putMandate_get, if_neg (Ne.symm hid)]
    rfl
  · intro key
    rw [accountAt_putMandate, accountAt_putAccount, lentBy_cons, lentBy_cons, lentBy_nil, lentBy_nil]
    by_cases hkey : toLower t.lender = key
    · rw [if_pos hkey, if_pos hkey, if_pos hkey, ← hkey, ← account_eq]
      unfold State.freedBy
      rw [hcancelled]
      cases hactive : m.active with
      | true =>
          obtain ⟨_, hlb⟩ := hkept hactive
          rw [hlb] at hcred ⊢
          exact ⟨by simpa using hcred, by simp, rfl⟩
      | false =>
          obtain ⟨_, hres, hlb⟩ := hfreed hactive
          refine ⟨?_, ?_, rfl⟩
          · simp
            omega
          · simpa using hres
    · rw [if_neg hkey, if_neg hkey, if_neg hkey]
      exact Account.Received.refl _

end Rounds

/-! ### All tranches -/

section Loop

variable {l : Loan} {interest : UInt64} {ts : List Tranche} {d d₁ d' : Distribution}

/-- What the rounds of the tranches `ts` do, each drawn on a mandate of its own. -/
structure TranchesPaid (l : Loan) (interest : UInt64) (ts : List Tranche)
    (d d' : Distribution) : Prop where
  frame : d'.state =
    { d.state with accounts := d'.state.accounts, mandates := d'.state.mandates }
  mandate : ∀ t ∈ ts, ∃ m m', d.state.mandates[t.mandateID]? = some m ∧
    d'.state.mandates[t.mandateID]? = some m' ∧ m.PaidBack t (l.part interest t) m'
  otherMandates : ∀ id : String, id ∉ ts.map Tranche.mandateID →
    d'.state.mandates[id]? = d.state.mandates[id]?
  account : ∀ key, (d.state.accountAt key).Received
    (lentBy key (fun t => l.part interest t + d.state.freedBy t) ts)
    (lentBy key d.state.freedBy ts) (d'.state.accountAt key)
  returned : d'.principalReturned.toNat = d.principalReturned.toNat + trancheTotal ts
  distributed : d'.lenderInterestDistributed.toNat =
    d.lenderInterestDistributed.toNat + l.parts interest ts

theorem lentBy_congr {key : String} {f g : Tranche → Nat} (h : ∀ t ∈ ts, f t = g t) :
    lentBy key f ts = lentBy key g ts := by
  unfold lentBy
  congr 1
  exact List.map_congr_left fun t ht => by rw [h t ht]

theorem RoundPaid.cons {t : Tranche} {rest : List Tranche} (h : RoundPaid l interest t d d₁)
    (h' : TranchesPaid l interest rest d₁ d') (hnew : t.mandateID ∉ rest.map Tranche.mandateID) :
    TranchesPaid l interest (t :: rest) d d' := by
  -- the round leaves the mandates of the other tranches alone
  have hother : ∀ t' ∈ rest, t'.mandateID ≠ t.mandateID := by
    intro t' ht' heq
    exact hnew (heq ▸ List.mem_map_of_mem ht')
  have hfreed : ∀ t' ∈ rest, d₁.state.freedBy t' = d.state.freedBy t' := by
    intro t' ht'
    unfold State.freedBy State.cancelled
    rw [h.otherMandates _ (hother t' ht')]
  refine { frame := ?_, mandate := ?_, otherMandates := ?_, account := ?_, returned := ?_,
           distributed := ?_ }
  · rw [h'.frame, h.frame]
  · intro t' ht'
    rcases List.mem_cons.mp ht' with rfl | ht'
    · obtain ⟨m, m', hm, hm', hpaid⟩ := h.mandate
      exact ⟨m, m', hm, (h'.otherMandates _ hnew).trans hm', hpaid⟩
    · obtain ⟨m, m', hm, hm', hpaid⟩ := h'.mandate t' ht'
      rw [h.otherMandates _ (hother t' ht')] at hm
      exact ⟨m, m', hm, hm', hpaid⟩
  · intro id hid
    rw [List.map_cons, List.mem_cons, not_or] at hid
    rw [h'.otherMandates id hid.2, h.otherMandates id hid.1]
  · intro key
    have hreceived := (h.account key).trans (h'.account key)
    have hboth : ∀ t' ∈ rest, l.part interest t' + d₁.state.freedBy t' =
        l.part interest t' + d.state.freedBy t' := fun t' ht' => by rw [hfreed t' ht']
    rw [@lentBy_congr rest _ _ _ hfreed, @lentBy_congr rest _ _ _ hboth] at hreceived
    simpa only [lentBy_cons, lentBy_nil, Nat.add_zero] using hreceived
  · rw [h'.returned, h.returned, trancheTotal_cons]
    omega
  · rw [h'.distributed, h.distributed]
    unfold Loan.parts
    rw [List.map_cons, List.sum_cons]
    omega

theorem payTranches_paid
    (hparts : ∀ t ∈ ts, ∃ li, trancheInterest l interest t = .ok li ∧
      li.toNat = l.part interest t)
    (hnodup : (ts.map Tranche.mandateID).Nodup)
    (h : ts.foldlM (payTranche l interest) d = .ok d') : TranchesPaid l interest ts d d' := by
  induction ts generalizing d with
  | nil =>
      cases h
      exact { frame := rfl, mandate := by simp, otherMandates := fun _ _ => rfl
              account := fun _ => Account.Received.refl _, returned := rfl, distributed := rfl }
  | cons t rest ih =>
      rw [List.foldlM_cons, bind_eq_ok] at h
      obtain ⟨d₁, hfirst, hrest⟩ := h
      rw [List.map_cons, List.nodup_cons] at hnodup
      obtain ⟨li, hli, hpart⟩ := hparts t List.mem_cons_self
      have hround := payTranche_paid hli hpart hfirst
      exact hround.cons (ih (fun t' ht' => hparts t' (List.mem_cons_of_mem _ ht')) hnodup.2 hrest)
        hnodup.1

end Loop

/-! ### The whole repayment -/

/-- From `s` to `s'` the loan `l` was repaid with `interest`, to the unit. -/
structure RepaidExactly (l : Loan) (interest : UInt64) (s s' : State) : Prop where
  /-- Nothing else changes. -/
  frame : s' = { s with
    accounts := s'.accounts, mandates := s'.mandates, protocolReserve := s'.protocolReserve }
  /-- The principal of each tranche goes back once, to its mandate while that is active. -/
  mandate : ∀ t ∈ l.tranches, ∃ m m', s.mandates[t.mandateID]? = some m ∧
    s'.mandates[t.mandateID]? = some m' ∧ m.PaidBack t (l.part interest t) m'
  otherMandates : ∀ id : String, id ∉ l.tranches.map Tranche.mandateID →
    s'.mandates[id]? = s.mandates[id]?
  /-- Each lender receives the interest of its tranches, and the principal of those whose mandate
  is cancelled out of what it had reserved. -/
  account : ∀ key, (s.accountAt key).Received
    (lentBy key (fun t => l.part interest t + s.freedBy t) l.tranches)
    (lentBy key s.freedBy l.tranches) (s'.accountAt key)
  /-- The rest of the interest goes to the reserve. -/
  reserve : s'.protocolReserve.toNat + l.parts interest l.tranches =
    s.protocolReserve.toNat + interest.toNat

section Results

variable {l : Loan} {interest : UInt64} {s s' : State} {d d' : Distribution}

theorem distributeRepayment_exact (hl : l.Funded)
    (h : distributeRepayment s l interest = .ok s') : RepaidExactly l interest s s' := by
  unfold distributeRepayment at h
  simp only [bind_eq_ok, rejectIf_eq_ok, answering_eq_ok, checkedSub_eq_ok, checkedAdd_eq_ok,
    not_not] at h
  obtain ⟨d, hloop, _, _, spread, hspread, reserve, hreserve, hs'⟩ := h
  have hpaid := payTranches_paid (fun t ht => hl.trancheInterest_ok interest ht) hl.nodup hloop
  have hdistributed : d.lenderInterestDistributed.toNat = l.parts interest l.tranches := by
    simpa using hpaid.distributed
  have hframe := hpaid.frame
  have hreserve₀ : d.state.protocolReserve = s.protocolReserve := by rw [hframe]
  cases hs'
  refine { frame := by rw [hframe], mandate := hpaid.mandate, otherMandates := hpaid.otherMandates
           account := hpaid.account, reserve := ?_ }
  show reserve.toNat + _ = _
  rw [hreserve, hreserve₀]
  omega

/-! ### How it can fail -/

/-- The error is not about the sums of the distribution. -/
def AddsUp (e : LedgerError) : Prop := e ≠ .lenderInterestExceeds ∧ e ≠ .trancheConservation

theorem checkedAdd_addsUp (a b : UInt64) : Post (checkedAdd a b) (fun _ => True) AddsUp :=
  Post.of_forall (fun _ _ => trivial) fun e he => by rw [checkedAdd_error he]; exact ⟨nofun, nofun⟩

theorem withContext_addsUp {α : Type} (context : String) (x : Except LedgerError α) :
    Post (withContext context x) (fun _ => True) AddsUp := by
  cases x with
  | ok a => exact Post.ok trivial
  | error e => exact Post.error ⟨nofun, nofun⟩

theorem returnPrincipal_addsUp (m : Mandate) (lb : Balance) (principal : UInt64) :
    Post (returnPrincipal m lb principal) (fun _ => True) AddsUp := by
  unfold returnPrincipal
  by_cases hactive : m.active = true
  · rw [if_pos hactive]
    exact Post.bind (withContext_addsUp _ _) fun _ _ => Post.pure trivial
  · rw [if_neg hactive]
    refine Post.bind (withContext_addsUp _ _) fun _ _ => ?_
    exact Post.bind (checkedAdd_addsUp _ _) fun _ _ => Post.pure trivial

theorem payTranche_addsUp {t : Tranche} {li : UInt64}
    (hli : trancheInterest l interest t = .ok li) (d : Distribution) :
    Post (payTranche l interest d t) (fun _ => True) AddsUp := by
  unfold payTranche
  rw [hli, ok_bind]
  refine Post.orElse (fun _ => ⟨nofun, nofun⟩) fun m _ => ?_
  refine Post.bind (withContext_addsUp _ _) fun _ _ => ?_
  refine Post.bind (returnPrincipal_addsUp _ _ _) fun _ _ => ?_
  refine Post.bind (checkedAdd_addsUp _ _) fun _ _ => ?_
  refine Post.bind (checkedAdd_addsUp _ _) fun _ _ => ?_
  refine Post.bind (checkedAdd_addsUp _ _) fun _ _ => ?_
  exact Post.bind (checkedAdd_addsUp _ _) fun _ _ => Post.pure trivial

/-- The lenders are never owed more than the borrower pays, and the tranches always add up. -/
theorem distributeRepayment_addsUp (hl : l.Funded) (s : State) :
    Post (distributeRepayment s l interest) (fun _ => True) AddsUp := by
  have hloop : Post (l.tranches.foldlM (payTranche l interest) { state := s }) (fun _ => True)
      AddsUp := by
    refine Post.foldlM (fun ts _ => ∀ t ∈ ts, t ∈ l.tranches) ?_ (fun _ h => h) |>.mono
      fun _ _ => trivial
    intro t rest d hts
    obtain ⟨li, hli, _⟩ := hl.trancheInterest_ok interest (hts t List.mem_cons_self)
    exact (payTranche_addsUp hli d).mono fun _ _ t' ht' => hts t' (List.mem_cons_of_mem _ ht')
  unfold distributeRepayment
  refine Post.bind (hloop.strengthen fun d hd _ => payTranches_paid
    (fun t ht => hl.trancheInterest_ok interest ht) hl.nodup hd) fun d hpaid => ?_
  have hreturned := hpaid.returned
  have hdistributed := hpaid.distributed
  have hle := hl.parts_le interest
  refine Post.rejectIf (fun hne => ?_) fun _ => ?_
  · refine absurd (UInt64.toNat_inj.mp ?_) hne
    simpa [hl.total] using hreturned
  have hspread : Post (answering .lenderInterestExceeds
      (checkedSub interest d.lenderInterestDistributed)) (fun _ => True) AddsUp := by
    rw [checkedSub_ok (by simp at hdistributed; omega)]
    exact Post.ok trivial
  refine Post.bind hspread fun _ _ => ?_
  exact Post.bind (checkedAdd_addsUp _ _) fun _ _ => Post.pure trivial

/-! ### When it succeeds -/

/-- The mandates hold what the loan was lent, and no balance that is credited leaves the range. -/
structure Settleable (s : State) (l : Loan) (interest : UInt64) : Prop where
  mandate : ∀ t ∈ l.tranches, ∃ m, s.mandates[t.mandateID]? = some m ∧
    t.principal.toNat ≤ m.allocatedPrincipal.toNat ∧
    m.available.toNat + (if m.active then t.principal.toNat else 0) < 2 ^ 64 ∧
    m.interestEarned.toNat + l.part interest t < 2 ^ 64
  reserved : ∀ key, lentBy key s.freedBy l.tranches ≤
    (s.accountAt key).balances.usdt0.reserved.toNat
  available : ∀ key, (s.accountAt key).balances.usdt0.available.toNat +
    lentBy key (fun t => l.part interest t + s.freedBy t) l.tranches < 2 ^ 64
  reserve : s.protocolReserve.toNat + interest.toNat <
    2 ^ 64 + l.parts interest l.tranches

/-- The same of the tranches that are left. -/
structure Settling (l : Loan) (interest : UInt64) (ts : List Tranche) (d : Distribution) :
    Prop where
  mandate : ∀ t ∈ ts, ∃ m, d.state.mandates[t.mandateID]? = some m ∧
    t.principal.toNat ≤ m.allocatedPrincipal.toNat ∧
    m.available.toNat + (if m.active then t.principal.toNat else 0) < 2 ^ 64 ∧
    m.interestEarned.toNat + l.part interest t < 2 ^ 64
  reserved : ∀ key, lentBy key d.state.freedBy ts ≤
    (d.state.accountAt key).balances.usdt0.reserved.toNat
  available : ∀ key, (d.state.accountAt key).balances.usdt0.available.toNat +
    lentBy key (fun t => l.part interest t + d.state.freedBy t) ts < 2 ^ 64
  returned : d.principalReturned.toNat + trancheTotal ts < 2 ^ 64
  distributed : d.lenderInterestDistributed.toNat + l.parts interest ts < 2 ^ 64

theorem returnPrincipal_settles {m : Mandate} {lb : Balance} {principal : UInt64}
    (havailable : m.available.toNat + (if m.active then principal.toNat else 0) < 2 ^ 64)
    (hreserved : (if m.active then 0 else principal.toNat) ≤ lb.reserved.toNat)
    (hcredit : lb.available.toNat + (if m.active then 0 else principal.toNat) < 2 ^ 64) :
    ∃ returned, returnPrincipal m lb principal = .ok returned ∧
      returned.2.available.toNat =
        lb.available.toNat + if m.active then 0 else principal.toNat := by
  unfold returnPrincipal
  cases hactive : m.active with
  | true =>
      simp only [hactive, if_true] at havailable
      rw [if_pos rfl, checkedAdd_ok havailable]
      exact ⟨_, rfl, rfl⟩
  | false =>
      simp only [hactive, Bool.false_eq_true, if_false] at hreserved hcredit
      rw [if_neg Bool.false_ne_true, checkedSub_ok hreserved, checkedAdd_ok hcredit]
      refine ⟨_, rfl, ?_⟩
      show (lb.available + principal).toNat = _
      rw [UInt64.toNat_add, Nat.mod_eq_of_lt hcredit]
      simp

theorem Settling.payTranche {t : Tranche} {rest : List Tranche} {li : UInt64}
    (h : Settling l interest (t :: rest) d) (hli : trancheInterest l interest t = .ok li)
    (hpart : li.toNat = l.part interest t) : ∃ d', payTranche l interest d t = .ok d' := by
  obtain ⟨m, hm, hallocated, havailable, hearned⟩ := h.mandate t List.mem_cons_self
  have hfreed : d.state.freedBy t = if m.active then 0 else t.principal.toNat := by
    unfold State.freedBy State.cancelled
    rw [hm]
    cases hactive : m.active <;> simp [hactive]
  have hreserved := h.reserved (toLower t.lender)
  have hcredit := h.available (toLower t.lender)
  have hreturned := h.returned
  have hdistributed := h.distributed
  unfold Loan.parts at hdistributed
  rw [List.map_cons, List.sum_cons] at hdistributed
  rw [trancheTotal_cons] at hreturned
  simp only [lentBy_cons, if_true, ← account_eq] at hreserved hcredit
  rw [hfreed] at hreserved hcredit
  obtain ⟨returned, hret, hreturnedAvailable⟩ :=
    @returnPrincipal_settles m (d.state.account t.lender).balances.usdt0 t.principal havailable
      (by omega) (by omega)
  unfold QuietLine.payTranche
  rw [hli, ok_bind, hm]
  simp only [Outcome.orElse, ok_bind]
  rw [checkedSub_ok hallocated]
  simp only [withContext, ok_bind, hret]
  rw [checkedAdd_ok (by omega), ok_bind, checkedAdd_ok (by omega), ok_bind,
    checkedAdd_ok (by omega), ok_bind, checkedAdd_ok (by omega), ok_bind]
  exact ⟨_, rfl⟩

theorem Settling.paid {t : Tranche} {rest : List Tranche} (h : Settling l interest (t :: rest) d)
    (hround : RoundPaid l interest t d d') (hnew : t.mandateID ∉ rest.map Tranche.mandateID) :
    Settling l interest rest d' := by
  have hother : ∀ t' ∈ rest, d'.state.mandates[t'.mandateID]? = d.state.mandates[t'.mandateID]? := by
    intro t' ht'
    exact hround.otherMandates _ fun heq => hnew (heq ▸ List.mem_map_of_mem ht')
  have hfreed : ∀ t' ∈ rest, d'.state.freedBy t' = d.state.freedBy t' := by
    intro t' ht'
    unfold State.freedBy State.cancelled
    rw [hother t' ht']
  have hboth : ∀ t' ∈ rest, l.part interest t' + d'.state.freedBy t' =
      l.part interest t' + d.state.freedBy t' := fun t' ht' => by rw [hfreed t' ht']
  have hreturned := h.returned
  have hdistributed := h.distributed
  unfold Loan.parts at hdistributed
  rw [List.map_cons, List.sum_cons] at hdistributed
  rw [trancheTotal_cons] at hreturned
  have hround₁ := hround.returned
  have hround₂ := hround.distributed
  refine { mandate := ?_, reserved := ?_, available := ?_, returned := by omega, distributed := ?_ }
  · intro t' ht'
    rw [hother t' ht']
    exact h.mandate t' (List.mem_cons_of_mem _ ht')
  · intro key
    have hreserved := h.reserved key
    have hreceived := (hround.account key).reserved
    rw [lentBy_congr hfreed]
    simp only [lentBy_cons, lentBy_nil] at hreserved hreceived
    omega
  · intro key
    have havailable := h.available key
    have hreceived := (hround.account key).available
    rw [lentBy_congr hboth]
    simp only [lentBy_cons, lentBy_nil] at havailable hreceived
    omega
  · unfold Loan.parts
    omega

theorem Settling.payTranches {ts : List Tranche} (h : Settling l interest ts d)
    (hparts : ∀ t ∈ ts, ∃ li, trancheInterest l interest t = .ok li ∧
      li.toNat = l.part interest t)
    (hnodup : (ts.map Tranche.mandateID).Nodup) :
    ∃ d', ts.foldlM (QuietLine.payTranche l interest) d = .ok d' := by
  induction ts generalizing d with
  | nil => exact ⟨d, rfl⟩
  | cons t rest ih =>
      rw [List.map_cons, List.nodup_cons] at hnodup
      obtain ⟨li, hli, hpart⟩ := hparts t List.mem_cons_self
      obtain ⟨d₁, hfirst⟩ := h.payTranche hli hpart
      have hround := payTranche_paid hli hpart hfirst
      obtain ⟨d', hrest⟩ := ih (h.paid hround hnodup.1)
        (fun t' ht' => hparts t' (List.mem_cons_of_mem _ ht')) hnodup.2
      exact ⟨d', by rw [List.foldlM_cons, hfirst, ok_bind, hrest]⟩

/-- **Repayment succeeds** where the balances have room for what it credits. -/
theorem distributeRepayment_settles (hl : l.Funded) (h : Settleable s l interest) :
    ∃ s', distributeRepayment s l interest = .ok s' := by
  have hparts : ∀ t ∈ l.tranches, ∃ li, trancheInterest l interest t = .ok li ∧
      li.toNat = l.part interest t := fun t ht => hl.trancheInterest_ok interest ht
  have hle := hl.parts_le interest
  have hlt := interest.toNat_lt
  have hplt := l.principal.toNat_lt
  have hstart : Settling l interest l.tranches { state := s } :=
    { mandate := h.mandate, reserved := h.reserved, available := h.available
      returned := by simpa [hl.total] using hplt
      distributed := by simpa using hle.trans_lt hlt }
  obtain ⟨d, hloop⟩ := hstart.payTranches hparts hl.nodup
  have hpaid := payTranches_paid hparts hl.nodup hloop
  have hreserve₀ : d.state.protocolReserve = s.protocolReserve := by rw [hpaid.frame]
  have hdistributed : d.lenderInterestDistributed.toNat = l.parts interest l.tranches := by
    simpa using hpaid.distributed
  have hreturned : d.principalReturned = l.principal := by
    refine UInt64.toNat_inj.mp ?_
    simpa [hl.total] using hpaid.returned
  have hspread : (interest - d.lenderInterestDistributed).toNat =
      interest.toNat - l.parts interest l.tranches := by
    rw [UInt64.toNat_sub_of_le _ _ (UInt64.le_iff_toNat_le.mpr (by omega)), hdistributed]
  have hreserve := h.reserve
  unfold distributeRepayment
  rw [hloop, ok_bind, rejectIf_of_not (not_not.mpr hreturned), ok_bind,
    checkedSub_ok (by omega)]
  simp only [answering, ok_bind]
  rw [checkedAdd_ok (by rw [hreserve₀, hspread]; omega)]
  exact ⟨_, rfl⟩

/-- **Repayment is exact**: in every reachable state, for every loan and every interest. -/
theorem repayment_exact (host : Host) (events : List Event) {id : String} {l : Loan}
    (hl : (ledgerAfter .wrapping host events).loans[id]? = some l) (interest : UInt64) :
    -- no division overflows, and together the lenders get no more than the interest
    (∀ t ∈ l.tranches, ∃ li, trancheInterest l interest t = .ok li ∧
      li.toNat = l.part interest t) ∧
    l.parts interest l.tranches ≤ interest.toNat ∧
    -- whatever the state, the sums come out, and where there is room for the credits it succeeds
    (∀ (s : State) (e : LedgerError), distributeRepayment s l interest = .error e →
      e ≠ .lenderInterestExceeds ∧ e ≠ .trancheConservation) ∧
    (∀ s : State, Settleable s l interest → ∃ s', distributeRepayment s l interest = .ok s') ∧
    -- what it credits is what is due
    ∀ s s' : State, distributeRepayment s l interest = .ok s' → RepaidExactly l interest s s' := by
  have hfunded : l.Funded :=
    ((wellformed_ledgerAfter .wrapping host events).loan id l hl).2.funded
  refine ⟨fun t ht => hfunded.trancheInterest_ok interest ht, hfunded.parts_le interest, ?_, ?_, ?_⟩
  · intro s e he
    exact (distributeRepayment_addsUp hfunded s).of_error he
  · intro s h
    exact distributeRepayment_settles hfunded h
  · intro s s' h
    exact distributeRepayment_exact hfunded h

/-- A loan of two lenders, the second at 20% and the borrower at 12.1%. -/
def mixedLending : List Operation := [
  .deposit "0xa" "FXRP" 2000000 "d1",
  .deposit "0xc" "USDT0" 600000 "d2",
  .deposit "0xd" "USDT0" 400000 "d3",
  .setMandate "0xc" "m1" 600000 600 7 600000 0,
  .setMandate "0xd" "m2" 400000 2000 7 400000 0,
  .acceptQuote { sampleQuote "q1" "0xa" with
      lenderAPRBPS := 1160, borrowerAPRBPS := 1210, maxAPRBPS := 2050
      tranches := [{ mandateID := "m1", lender := "0xc", principal := 600000, aprBPS := 600 },
        { mandateID := "m2", lender := "0xd", principal := 400000, aprBPS := 2000 }] }
    "x" 0 (some { xrpUSDE6 := 2000000, updatedAt := 1000 })]

theorem repayment_exact_mixed : ∃ l, (ledgerAfter .wrapping sampleHost
    (settledCalls .wrapping sampleHost newState mixedLending)).loans["x"]? = some l ∧
    l.parts 1000 l.tranches ≤ 1000 := by
  have hloan : (ledgerAfter .wrapping sampleHost
      (settledCalls .wrapping sampleHost newState mixedLending)).loans["x"]?.isSome = true := by
    decide +kernel
  obtain ⟨l, hl⟩ := Option.isSome_iff_exists.mp hloan
  exact ⟨l, hl, (repayment_exact sampleHost _ hl 1000).2.1⟩

end Results

end QuietLine
