/-
What `distributeRepayment` does to a state.

The loop visits the tranches of one loan.  Three relations describe what it leaves
behind: `Mandate.Repaid` on each mandate, `Account.Credited` on each account, and
`Distributed` on the ledger as a whole.  One round satisfies them (`payTranche_ok`),
they compose, and the whole loop follows by induction on the tranches.
-/
import QuietLine.Ledger.Access
import QuietLine.Library.MapRel

namespace QuietLine

open Outcome MapSum MapRel

/-! ### Holdings -/

/-- All USDT0 of an account. -/
def Account.usdt0Held (a : Account) : Nat :=
  a.balances.usdt0.available.toNat + a.balances.usdt0.reserved.toNat

/-- All FXRP of an account. -/
def Account.fxrpHeld (a : Account) : Nat :=
  a.balances.fxrp.available.toNat + a.balances.fxrp.reserved.toNat

/-- What a mandate can lend and what it has lent. -/
def Mandate.liquidity (m : Mandate) : Nat := m.available.toNat + m.allocatedPrincipal.toNat

/-- What the mandates of one lender can lend and have lent. -/
def State.backing (s : State) (key : String) : Nat :=
  s.totalMandates fun m => if m.lender = key then m.liquidity else 0

/-! ### One mandate, one account -/

/-- `m'` is `m` later in its life: the same offer by the same lender. -/
structure Mandate.SameOffer (m m' : Mandate) : Prop where
  id : m'.id = m.id
  lender : m'.lender = m.lender
  minAPRBPS : m'.minAPRBPS = m.minAPRBPS
  perBorrowerCap : m'.perBorrowerCap = m.perBorrowerCap
  inactive : m.active = false → m'.active = false

theorem Mandate.SameOffer.refl (m : Mandate) : m.SameOffer m := ⟨rfl, rfl, rfl, rfl, fun h => h⟩

theorem Mandate.SameOffer.trans {m m' m'' : Mandate} (h : m.SameOffer m')
    (h' : m'.SameOffer m'') : m.SameOffer m'' :=
  ⟨h'.id.trans h.id, h'.lender.trans h.lender, h'.minAPRBPS.trans h.minAPRBPS,
    h'.perBorrowerCap.trans h.perBorrowerCap, fun hm => h'.inactive (h.inactive hm)⟩

/-- `m'` is `m` after `returned` of what it had lent was paid back. -/
structure Mandate.Repaid (returned : Nat) (m m' : Mandate) : Prop extends m.SameOffer m' where
  allocated : m.allocatedPrincipal.toNat = m'.allocatedPrincipal.toNat + returned
  /-- Into an active mandate the principal goes back. -/
  active : m.active = true → m'.liquidity = m.liquidity
  /-- To a cancelled one it does not. -/
  cancelled : m.active = false → m'.available = m.available
  /-- A mandate stops matching only when it is empty. -/
  retired : m.active = true → m'.active = false → m'.liquidity = 0

theorem Mandate.Repaid.refl (m : Mandate) : m.Repaid 0 m :=
  ⟨Mandate.SameOffer.refl m, rfl, fun _ => rfl, fun _ => rfl, fun h h' => by rw [h] at h'; cases h'⟩

theorem Mandate.Repaid.trans {m m' m'' : Mandate} {r r' : Nat} (h : m.Repaid r m')
    (h' : m'.Repaid r' m'') : m.Repaid (r + r') m'' := by
  have hall := h.allocated
  have hall' := h'.allocated
  have hactive : m.active = true → m''.liquidity = m.liquidity := by
    intro hm
    cases hm' : m'.active with
    | true => rw [h'.active hm', h.active hm]
    | false =>
        -- retired by the first payment, so empty: the second returned nothing
        have hzero := h.retired hm hm'
        have hsame := h.active hm
        have hav := congrArg UInt64.toNat (h'.cancelled hm')
        unfold Mandate.liquidity at *
        omega
  refine ⟨h.toSameOffer.trans h'.toSameOffer, by omega, hactive, ?_, ?_⟩
  · intro hm
    rw [h'.cancelled (h.inactive hm), h.cancelled hm]
  · intro hm hm''
    cases hm' : m'.active with
    | true => exact h'.retired hm' hm''
    | false =>
        have hzero := h.retired hm hm'
        rw [hactive hm, ← h.active hm, hzero]

/-- `a'` is `a` after payments to its USDT0 balance. -/
structure Account.Credited (a a' : Account) : Prop where
  owner : a'.owner = a.owner
  nonce : a'.nonce = a.nonce
  loanID : a'.loanID = a.loanID
  fxrp : a'.balances.fxrp = a.balances.fxrp
  available : a.balances.usdt0.available.toNat ≤ a'.balances.usdt0.available.toNat
  held : a.usdt0Held ≤ a'.usdt0Held

theorem Account.Credited.refl (a : Account) : a.Credited a :=
  ⟨rfl, rfl, rfl, rfl, le_rfl, le_rfl⟩

theorem Account.Credited.trans {a a' a'' : Account} (h : a.Credited a') (h' : a'.Credited a'') :
    a.Credited a'' :=
  ⟨h'.owner.trans h.owner, h'.nonce.trans h.nonce, h'.loanID.trans h.loanID,
    h'.fxrp.trans h.fxrp, h.available.trans h'.available, h.held.trans h'.held⟩

/-! ### One round -/

theorem retireIfEmpty_available (m : Mandate) : m.retireIfEmpty.available = m.available := by
  unfold Mandate.retireIfEmpty
  split <;> rfl

theorem retireIfEmpty_allocated (m : Mandate) :
    m.retireIfEmpty.allocatedPrincipal = m.allocatedPrincipal := by
  unfold Mandate.retireIfEmpty
  split <;> rfl

theorem retireIfEmpty_earned (m : Mandate) : m.retireIfEmpty.interestEarned = m.interestEarned := by
  unfold Mandate.retireIfEmpty
  split <;> rfl

/-- A retired mandate is active if it was and has anything. -/
theorem retireIfEmpty_active (m : Mandate) : m.retireIfEmpty.active = true ↔
    m.active = true ∧ (m.available ≠ 0 ∨ m.allocatedPrincipal ≠ 0) := by
  unfold Mandate.retireIfEmpty
  by_cases hempty : m.available = 0 ∧ m.allocatedPrincipal = 0
  · simp [hempty]
  · rw [if_neg hempty]
    exact (and_iff_left (by tauto)).symm

theorem retireIfEmpty_liquidity_eq (m : Mandate) : m.retireIfEmpty.liquidity = m.liquidity := by
  rw [Mandate.liquidity, retireIfEmpty_available, retireIfEmpty_allocated, Mandate.liquidity]

/-- Retiring a mandate keeps the offer it was made with. -/
theorem retireIfEmpty_sameOffer {m m₁ : Mandate} (hid : m₁.id = m.id)
    (hlender : m₁.lender = m.lender) (hmin : m₁.minAPRBPS = m.minAPRBPS)
    (hcap : m₁.perBorrowerCap = m.perBorrowerCap) (hactive : m₁.active = m.active) :
    m.SameOffer m₁.retireIfEmpty := by
  unfold Mandate.retireIfEmpty
  split
  · exact ⟨hid, hlender, hmin, hcap, fun _ => rfl⟩
  · exact ⟨hid, hlender, hmin, hcap, fun h => hactive.trans h⟩

/-- Only an empty mandate retires. -/
theorem retireIfEmpty_liquidity {m m' : Mandate} (hm' : m.retireIfEmpty = m')
    (hactive : m.active = true) (hinactive : m'.active = false) : m'.liquidity = 0 := by
  unfold Mandate.retireIfEmpty at hm'
  by_cases hempty : m.available = 0 ∧ m.allocatedPrincipal = 0
  · rw [if_pos hempty] at hm'
    rw [← hm', Mandate.liquidity, hempty.1, hempty.2]
    rfl
  · rw [if_neg hempty] at hm'
    rw [← hm', hactive] at hinactive
    cases hinactive

/-- The two ways principal comes back. -/
theorem returnPrincipal_ok {m : Mandate} {lb : Balance} {principal : UInt64}
    {returned : UInt64 × Balance} (h : returnPrincipal m lb principal = .ok returned) :
    (m.active = true → returned.1.toNat = m.available.toNat + principal.toNat ∧
      returned.2 = lb) ∧
    (m.active = false → returned.1 = m.available ∧
      lb.reserved.toNat = returned.2.reserved.toNat + principal.toNat ∧
      returned.2.available.toNat = lb.available.toNat + principal.toNat) := by
  unfold returnPrincipal at h
  cases hactive : m.active with
  | true =>
      simp only [hactive, if_true, bind_eq_ok, withContext_eq_ok, checkedAdd_eq_ok] at h
      obtain ⟨available, havail, h⟩ := h
      cases h
      exact ⟨fun _ => ⟨havail, rfl⟩, fun h => absurd h (by decide)⟩
  | false =>
      simp only [hactive, Bool.false_eq_true, if_false, bind_eq_ok, withContext_eq_ok,
        checkedSub_eq_ok, checkedAdd_eq_ok] at h
      obtain ⟨reserved, hres, available, havail, h⟩ := h
      cases h
      refine ⟨fun h => absurd h (by decide), fun _ => ⟨rfl, ?_, havail⟩⟩
      show _ = reserved.toNat + principal.toNat
      omega

/-- Rounding down twice loses: a tranche earns at most its part of the interest. -/
theorem trancheInterest_le {l : Loan} {interest li : UInt64} {t : Tranche}
    (h : trancheInterest l interest t = .ok li) :
    li.toNat * (l.principal.toNat * l.borrowerAPRBPS.toNat) ≤
      interest.toNat * (t.principal.toNat * t.aprBPS.toNat) := by
  unfold trancheInterest at h
  rw [bind_eq_ok] at h
  obtain ⟨share, hshare, hli⟩ := h
  obtain ⟨_, hshare⟩ := mulDiv_eq_ok hshare
  obtain ⟨_, hli⟩ := mulDiv_eq_ok hli
  simp only [List.map_cons, List.map_nil, List.prod_cons, List.prod_nil, mul_one,
    UInt32.toNat_toUInt64] at hshare hli
  have hshare' : share.toNat * l.principal.toNat ≤ interest.toNat * t.principal.toNat := by
    rw [hshare]
    exact Nat.div_mul_le_self _ _
  have hli' : li.toNat * l.borrowerAPRBPS.toNat ≤ share.toNat * t.aprBPS.toNat := by
    rw [hli]
    exact Nat.div_mul_le_self _ _
  calc li.toNat * (l.principal.toNat * l.borrowerAPRBPS.toNat)
      = li.toNat * l.borrowerAPRBPS.toNat * l.principal.toNat := by ring
    _ ≤ share.toNat * t.aprBPS.toNat * l.principal.toNat := Nat.mul_le_mul_right _ hli'
    _ = share.toNat * l.principal.toNat * t.aprBPS.toNat := by ring
    _ ≤ interest.toNat * t.principal.toNat * t.aprBPS.toNat := Nat.mul_le_mul_right _ hshare'
    _ = interest.toNat * (t.principal.toNat * t.aprBPS.toNat) := by ring

/-- What one round writes: the mandate `m'`, and the lender's USDT0 balance `lb'`. -/
structure TranchePaid (l : Loan) (interest : UInt64) (d : Distribution) (t : Tranche)
    (d' : Distribution) (m m' : Mandate) (lb' : Balance) (li : UInt64) : Prop where
  found : d.state.mandates[t.mandateID]? = some m
  interest : trancheInterest l interest t = .ok li
  state : d'.state = (d.state.putAccount t.lender { d.state.account t.lender with
    balances := (d.state.account t.lender).balances.set .usdt0 lb' }).putMandate t.mandateID m'
  mandate : m.Repaid t.principal.toNat m'
  /-- An active mandate keeps the principal reserved. -/
  kept : m.active = true →
    lb'.reserved = (d.state.account t.lender).balances.usdt0.reserved ∧
    lb'.available.toNat = (d.state.account t.lender).balances.usdt0.available.toNat + li.toNat
  /-- A cancelled one gives it back to the lender. -/
  freed : m.active = false →
    (d.state.account t.lender).balances.usdt0.reserved.toNat =
      lb'.reserved.toNat + t.principal.toNat ∧
    lb'.available.toNat =
      (d.state.account t.lender).balances.usdt0.available.toNat + t.principal.toNat + li.toNat
  principalReturned : d'.principalReturned.toNat = d.principalReturned.toNat + t.principal.toNat
  lenderInterest :
    d'.lenderInterestDistributed.toNat = d.lenderInterestDistributed.toNat + li.toNat

theorem payTranche_ok {l : Loan} {interest : UInt64} {d d' : Distribution} {t : Tranche}
    (h : payTranche l interest d t = .ok d') :
    ∃ m m' lb' li, TranchePaid l interest d t d' m m' lb' li := by
  unfold payTranche at h
  simp only [bind_eq_ok, orElse_eq_ok, withContext_eq_ok, checkedSub_eq_ok, checkedAdd_eq_ok] at h
  obtain ⟨li, hli, m, hm, allocated, halloc, returned, hret, credited, hcred, earned, _,
    principalReturned, hpr, distributed, hdist, hd'⟩ := h
  obtain ⟨hkept, hfreed⟩ := returnPrincipal_ok hret
  generalize hm' : Mandate.retireIfEmpty { m with
    available := returned.1, allocatedPrincipal := allocated, interestEarned := earned } = m' at hd'
  have hsame : m.SameOffer m' := hm' ▸ retireIfEmpty_sameOffer rfl rfl rfl rfl rfl
  have hav : m'.available = returned.1 := by rw [← hm', retireIfEmpty_available]
  have hall : m'.allocatedPrincipal = allocated := by rw [← hm', retireIfEmpty_allocated]
  cases hd'
  refine ⟨m, m', { returned.2 with available := credited }, li, hm, hli, rfl,
    ⟨hsame, by rw [hall]; omega, ?_, ?_, ?_⟩, ?_, ?_, hpr, hdist⟩
  · intro hactive
    have := (hkept hactive).1
    unfold Mandate.liquidity
    rw [hav, hall]
    omega
  · intro hactive
    rw [hav]
    exact (hfreed hactive).1
  · intro hactive hinactive
    exact retireIfEmpty_liquidity hm' hactive hinactive
  · intro hactive
    obtain ⟨_, hlb⟩ := hkept hactive
    rw [hlb] at hcred ⊢
    exact ⟨rfl, hcred⟩
  · intro hactive
    obtain ⟨_, hres, hlb⟩ := hfreed hactive
    refine ⟨hres, ?_⟩
    show credited.toNat = _
    omega

/-! ### The whole loop -/

/-- The tranches name the lenders of the mandates they are drawn on. -/
def LendersAgree (s : State) (tranches : List Tranche) : Prop :=
  ∀ t ∈ tranches, ∀ m, s.mandates[t.mandateID]? = some m → toLower t.lender = m.lender

/-- From `d` to `d'` the tranches `ts` of `l` were paid. -/
structure Distributed (l : Loan) (interest : UInt64) (ts : List Tranche)
    (d d' : Distribution) : Prop where
  frame : d'.state =
    { d.state with accounts := d'.state.accounts, mandates := d'.state.mandates }
  accounts : ∀ key, (d.state.accountAt key).Credited (d'.state.accountAt key)
  mandates : Pointwise (fun id => Mandate.Repaid (trancheShare id ts))
    d.state.mandates d'.state.mandates
  /-- What a lender keeps reserved moves with what backs it. -/
  reserved : LendersAgree d.state ts → ∀ key,
    (d'.state.accountAt key).balances.usdt0.reserved.toNat + d.state.backing key =
      (d.state.accountAt key).balances.usdt0.reserved.toNat + d'.state.backing key
  /-- The lenders receive the interest that is counted as distributed, and nothing else. -/
  held : d'.state.totalAccounts Account.usdt0Held + d.lenderInterestDistributed.toNat =
    d.state.totalAccounts Account.usdt0Held + d'.lenderInterestDistributed.toNat
  principalReturned :
    d'.principalReturned.toNat = d.principalReturned.toNat + trancheTotal ts
  interestBound :
    d'.lenderInterestDistributed.toNat * (l.principal.toNat * l.borrowerAPRBPS.toNat) ≤
      d.lenderInterestDistributed.toNat * (l.principal.toNat * l.borrowerAPRBPS.toNat) +
        interest.toNat * weighted ts

theorem Distributed.refl (l : Loan) (interest : UInt64) (d : Distribution) :
    Distributed l interest [] d d :=
  ⟨rfl, fun _ => Account.Credited.refl _, Pointwise.refl fun _ m _ => Mandate.Repaid.refl m,
    fun _ _ => rfl, rfl, rfl, by simp⟩

theorem LendersAgree.of_repaid {s s' : State} {ts : List Tranche} {r : String → Nat}
    (h : LendersAgree s ts) (hm : Pointwise (fun id => Mandate.Repaid (r id)) s.mandates
      s'.mandates) : LendersAgree s' ts := by
  intro t ht m' hm'
  obtain ⟨m, hget, hrep⟩ := hm.get' hm'
  rw [hrep.lender]
  exact h t ht m hget

theorem Distributed.cons {l : Loan} {interest : UInt64} {t : Tranche} {rest : List Tranche}
    {d d₁ d₂ : Distribution} (h : Distributed l interest [t] d d₁)
    (h' : Distributed l interest rest d₁ d₂) : Distributed l interest (t :: rest) d d₂ := by
  refine ⟨?_, fun key => (h.accounts key).trans (h'.accounts key), ?_, ?_, ?_, ?_, ?_⟩
  · rw [h'.frame, h.frame]
  · refine h.mandates.comp h'.mandates fun id m m₁ m₂ hm hm₁ => ?_
    have hboth := hm.trans hm₁
    simpa using hboth
  · intro hagree key
    have h₁ := h.reserved (fun t' ht' => hagree t' (by simp_all)) key
    have h₂ := h'.reserved (LendersAgree.of_repaid
      (fun t' ht' => hagree t' (List.mem_cons_of_mem _ ht')) h.mandates) key
    omega
  · have h₁ := h.held
    have h₂ := h'.held
    omega
  · have h₁ := h.principalReturned
    have h₂ := h'.principalReturned
    simp only [trancheTotal_cons, trancheTotal_nil] at h₁ ⊢
    omega
  · have h₁ := h.interestBound
    have h₂ := h'.interestBound
    simp only [weighted_cons, weighted_nil, Nat.add_zero] at h₁ ⊢
    rw [Nat.mul_add]
    omega

/-- One account write moves the USDT0 sum by what it moves the account. -/
theorem totalAccounts_usdt0Held_putAccount (s : State) (owner : String) (a : Account) :
    (s.putAccount owner a).totalAccounts Account.usdt0Held + (s.account owner).usdt0Held =
      s.totalAccounts Account.usdt0Held + a.usdt0Held :=
  totalAccounts_putAccount (fun _ => rfl) s owner a

theorem TranchePaid.distributed {l : Loan} {interest : UInt64} {d d' : Distribution} {t : Tranche}
    {m m' : Mandate} {lb' : Balance} {li : UInt64}
    (h : TranchePaid l interest d t d' m m' lb' li) : Distributed l interest [t] d d' := by
  -- in both cases the lender gains `li`, and what it keeps reserved moves as `m` does
  have hmoves : lb'.available.toNat + lb'.reserved.toNat =
        (d.state.account t.lender).usdt0Held + li.toNat ∧
      (d.state.account t.lender).balances.usdt0.available.toNat ≤ lb'.available.toNat ∧
      lb'.reserved.toNat + m.liquidity =
        (d.state.account t.lender).balances.usdt0.reserved.toNat + m'.liquidity := by
    have halloc := h.mandate.allocated
    unfold Account.usdt0Held
    cases hactive : m.active with
    | true =>
        obtain ⟨hres, hav⟩ := h.kept hactive
        have hliq := h.mandate.active hactive
        rw [hres, hliq]
        omega
    | false =>
        obtain ⟨hres, hav⟩ := h.freed hactive
        have hsame := congrArg UInt64.toNat (h.mandate.cancelled hactive)
        unfold Mandate.liquidity
        omega
  obtain ⟨hheld, hav, hliq⟩ := hmoves
  have hfound := h.found
  refine ⟨by rw [h.state]; rfl, ?_, ?_, ?_, ?_, ?_, ?_⟩
  · intro key
    rw [h.state, accountAt_putMandate, accountAt_putAccount]
    by_cases hkey : toLower t.lender = key
    · rw [if_pos hkey, ← hkey, ← account_eq]
      refine ⟨rfl, rfl, rfl, rfl, hav, ?_⟩
      show _ ≤ lb'.available.toNat + lb'.reserved.toNat
      omega
    · rw [if_neg hkey]
      exact Account.Credited.refl _
  · rw [h.state]
    refine Pointwise.insert hfound ?_ ?_
    · simpa using h.mandate
    · intro id m'' _ hne
      have hshare : trancheShare id [t] = 0 := by
        simp [if_neg fun h0 : t.mandateID = id => hne h0.symm]
      rw [hshare]
      exact Mandate.Repaid.refl m''
  · intro hagree key
    have hlender : toLower t.lender = m.lender := hagree t (by simp) m hfound
    have hback := totalMandates_putMandate_some m'
      (s := d.state.putAccount t.lender { d.state.account t.lender with
        balances := (d.state.account t.lender).balances.set .usdt0 lb' })
      (f := fun m => if m.lender = key then m.liquidity else 0) hfound
    rw [← h.state] at hback
    change d'.state.backing key + _ = d.state.backing key + _ at hback
    rw [h.mandate.lender] at hback
    rw [h.state, accountAt_putMandate, accountAt_putAccount, ← h.state]
    by_cases hkey : toLower t.lender = key
    · subst hkey
      rw [if_pos rfl, ← account_eq]
      rw [if_pos hlender.symm, if_pos hlender.symm] at hback
      show lb'.reserved.toNat + _ = _
      omega
    · rw [if_neg hkey]
      rw [if_neg fun h0 => hkey (hlender.trans h0), if_neg fun h0 => hkey (hlender.trans h0)] at hback
      omega
  · have hput := totalAccounts_usdt0Held_putAccount d.state t.lender
      { d.state.account t.lender with
        balances := (d.state.account t.lender).balances.set .usdt0 lb' }
    change d'.state.totalAccounts _ + _ = _
    have hsum : d'.state.totalAccounts Account.usdt0Held =
        (d.state.putAccount t.lender { d.state.account t.lender with
          balances := (d.state.account t.lender).balances.set .usdt0 lb' }).totalAccounts
            Account.usdt0Held := by rw [h.state]; rfl
    have hnew : ({ d.state.account t.lender with
        balances := (d.state.account t.lender).balances.set .usdt0 lb' } : Account).usdt0Held =
        lb'.available.toNat + lb'.reserved.toNat := rfl
    have hli := h.lenderInterest
    omega
  · simpa using h.principalReturned
  · have hle := trancheInterest_le h.interest
    simp only [h.lenderInterest, weighted_cons, weighted_nil, Nat.add_zero, Nat.add_mul]
    omega

/-- **The loop of `distributeRepayment`**, over any list of tranches. -/
theorem payTranches_distributed {l : Loan} {interest : UInt64} {ts : List Tranche}
    {d d' : Distribution} (h : ts.foldlM (payTranche l interest) d = .ok d') :
    Distributed l interest ts d d' := by
  refine foldlM_ok (R := Distributed l interest) (Distributed.refl l interest) ?_ h
  intro t rest d d₁ d₂ hpay hrest
  obtain ⟨m, m', lb', li, hpaid⟩ := payTranche_ok hpay
  exact hpaid.distributed.cons hrest

/-- From `s` to `s'` the loan `l` was repaid with `interest` on top of its principal. -/
structure RepaymentDistributed (l : Loan) (interest : UInt64) (s s' : State) : Prop where
  frame : s' = { s with
    accounts := s'.accounts, mandates := s'.mandates, protocolReserve := s'.protocolReserve }
  accounts : ∀ key, (s.accountAt key).Credited (s'.accountAt key)
  mandates : Pointwise (fun id => Mandate.Repaid (trancheShare id l.tranches))
    s.mandates s'.mandates
  reserved : LendersAgree s l.tranches → ∀ key,
    (s'.accountAt key).balances.usdt0.reserved.toNat + s.backing key =
      (s.accountAt key).balances.usdt0.reserved.toNat + s'.backing key
  /-- The lenders and the protocol share the interest, all of it. -/
  held : s'.totalAccounts Account.usdt0Held + s'.protocolReserve.toNat =
    s.totalAccounts Account.usdt0Held + s.protocolReserve.toNat + interest.toNat
  total : trancheTotal l.tranches = l.principal.toNat

/-- **Repayment conserves value**: `distributeRepayment` moves the interest, no more and no less,
into the accounts of the lenders and the reserve of the protocol. -/
theorem distributeRepayment_ok {s s' : State} {l : Loan} {interest : UInt64}
    (h : distributeRepayment s l interest = .ok s') : RepaymentDistributed l interest s s' := by
  unfold distributeRepayment at h
  simp only [bind_eq_ok, rejectIf_eq_ok, answering_eq_ok, checkedSub_eq_ok, checkedAdd_eq_ok,
    not_not] at h
  obtain ⟨d, hloop, _, hprincipal, spread, hspread, reserve, hreserve, hs'⟩ := h
  have hd := payTranches_distributed hloop
  cases hs'
  have hframe := hd.frame
  have hreserve₀ : d.state.protocolReserve = s.protocolReserve := by rw [hframe]
  rw [hreserve₀] at hreserve
  refine ⟨by rw [hframe], hd.accounts, hd.mandates, hd.reserved, ?_, ?_⟩
  · have hheld : d.state.totalAccounts Account.usdt0Held + 0 =
        s.totalAccounts Account.usdt0Held + d.lenderInterestDistributed.toNat := hd.held
    show d.state.totalAccounts Account.usdt0Held + reserve.toNat = _
    omega
  · have hreturned := hd.principalReturned
    rw [hprincipal] at hreturned
    simp at hreturned
    omega

end QuietLine
