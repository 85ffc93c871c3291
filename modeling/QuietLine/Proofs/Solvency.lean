/-
The ledger is solvent.

Where acceptances bring fresh loan ids and deposits keep the claims within a
`uint64`, every state a run reaches is sound: reserved balances, allocations, debt
and collateral agree, nothing wraps and nothing faults.  Each committed operation
changes what the ledger owes by the amount it is called for, and what could be
withdrawn or lent never exceeds what is owed and not lent out already.
-/
import QuietLine.Proofs.Faults

namespace QuietLine

open Outcome MapSum MapRel Std

/-! ### The runs -/

/-- The call, if it is a deposit, keeps the claims in its asset within a `uint64`. -/
def KeepsRange (s : State) : Event → Prop
  | .operate _ _ (.deposit _ asset amount _) =>
      (asset = "USDT0" → s.claimsUSDT0 + amount.toNat < 2 ^ 64) ∧
        (asset = "FXRP" → s.claimsFXRP + amount.toNat < 2 ^ 64)
  | .operate _ _ (.seedBackstop amount _) => s.claimsUSDT0 + amount.toNat < 2 ^ 64
  | _ => True

/-- What is asked of the calls a run accepts. -/
structure Guarded (s : State) (e : Event) : Prop where
  fresh : FreshLoanID s e
  range : KeepsRange s e

theorem KeepsRange.usdt0 {s : State} {ctx : Context} {stored : Bool} {op : Operation}
    (h : KeepsRange s (.operate ctx stored op)) (hlt : s.claimsUSDT0 < 2 ^ 64) :
    s.claimsUSDT0 + max op.usdt0Delta 0 < 2 ^ 64 := by
  cases op with
  | deposit owner asset amount id =>
      show _ + max (if asset = "USDT0" then (amount.toNat : Int) else 0) 0 < _
      by_cases hasset : asset = "USDT0"
      · have hroom := h.1 hasset
        rw [if_pos hasset]
        omega
      · rw [if_neg hasset]
        omega
  | seedBackstop amount id =>
      have hroom : s.claimsUSDT0 + amount.toNat < 2 ^ 64 := h
      show _ + max (amount.toNat : Int) 0 < _
      omega
  | withdraw owner asset amount id nonce =>
      show _ + max (if asset = "USDT0" then -(amount.toNat : Int) else 0) 0 < _
      by_cases hasset : asset = "USDT0"
      · rw [if_pos hasset]
        omega
      · rw [if_neg hasset]
        omega
  | _ => simp only [Operation.usdt0Delta]; omega

theorem KeepsRange.fxrp {s : State} {ctx : Context} {stored : Bool} {op : Operation}
    (h : KeepsRange s (.operate ctx stored op)) (hlt : s.claimsFXRP < 2 ^ 64) :
    s.claimsFXRP + op.fxrpDelta < 2 ^ 64 := by
  cases op with
  | deposit owner asset amount id =>
      show _ + (if asset = "FXRP" then (amount.toNat : Int) else 0) < _
      by_cases hasset : asset = "FXRP"
      · have hroom := h.2 hasset
        rw [if_pos hasset]
        omega
      · rw [if_neg hasset]
        omega
  | withdraw owner asset amount id nonce =>
      show _ + (if asset = "FXRP" then -(amount.toNat : Int) else 0) < _
      by_cases hasset : asset = "FXRP"
      · rw [if_pos hasset]
        omega
      · rw [if_neg hasset]
        omega
  | _ => simp only [Operation.fxrpDelta]; omega

/-- Numbering and hashing move nothing. -/
theorem Sound.anchored {host : Host} {kind : OpKind} {id : String} {s next : State}
    (h : Sound next) : Sound (anchored host kind id s next) :=
  ⟨h.toBacked.of_parts rfl rfl rfl rfl, h.usdt0_lt, h.fxrp_lt⟩

theorem sound_newState : Sound newState := by
  have hbacking : ∀ key, newState.backing key = 0 := by
    intro key
    exact total_eq_zero fun _ _ h => by simp [newState] at h
  have hopen : ∀ f : Loan → Nat, newState.totalOpen f = 0 := by
    intro f
    exact total_eq_zero fun _ _ h => by simp [newState] at h
  have hclaims : ∀ f : Account → Nat, newState.totalAccounts f = 0 := by
    intro f
    exact total_eq_zero fun _ _ h => by simp [newState] at h
  refine ⟨⟨pointed_newState, ?_, ?_, ?_, ?_, ?_⟩, ?_, ?_⟩
  · intro key
    rw [hbacking]
    simp [newState, State.accountAt]
  · intro id m hm
    simp [newState] at hm
  · intro id m hm
    simp [newState] at hm
  · exact (hopen _).symm
  · intro key
    rw [State.pledged, hopen]
    simp [newState, State.accountAt]
  · rw [State.claimsUSDT0, hclaims]
    decide
  · rw [State.claimsFXRP, hclaims]
    decide

/-- **One accepted call** of the source's arithmetic: exact, and it keeps the books. -/
theorem Sound.operate {host : Host} {ctx : Context} {stored : Bool} {op : Operation}
    {s s' : State} (h : Sound s) (hg : Guarded s (.operate ctx stored op))
    (hop : op.apply .wrapping host ctx stored s = .ok s') :
    Sound s' ∧ Moved s s' op.usdt0Delta op.fxrpDelta := by
  obtain ⟨_, _, next, hbody, rfl⟩ := Operation.apply_ok hop
  rw [← h.body_eq] at hbody
  obtain ⟨hbacked, hmoved⟩ := body_books h.toBacked hg.fresh hbody
  have hsound := h.moved hbacked hmoved (hg.range.usdt0 h.usdt0_lt) (hg.range.fxrp h.fxrp_lt)
  exact ⟨hsound.anchored, hmoved.net, hmoved.held, hmoved.bound⟩

theorem sound_step {host : Host} (s : State) (e : Event) (s' : State) (h : Sound s)
    (hg : Guarded s e) (hstep : step .wrapping host s e = .ok s') : Sound s' := by
  cases e with
  | operate ctx stored op => exact (h.operate hg hstep).1
  | confirm sequence root stored =>
      obtain rfl := confirmAnchor_ok hstep
      exact ⟨h.toBacked.of_parts rfl rfl rfl rfl, h.usdt0_lt, h.fxrp_lt⟩

theorem sound_ledgerAfter (host : Host) (events : List Event)
    (h : Machine.Meets (step .wrapping host) Guarded newState events) :
    Sound (ledgerAfter .wrapping host events) :=
  Machine.invariant_of_meets sound_step sound_newState events h

/-! ### Reserved backing -/

/-- What backs the reserved balances, entry by entry. -/
structure ReservedBacking (s : State) : Prop where
  /-- Reserved USDT0 is what the mandates of the account have available and allocated. -/
  usdt0 : ∀ (key : String) (a : Account), s.accounts[key]? = some a →
    a.balances.usdt0.reserved.toNat = s.totalMandates fun m =>
      if m.lender = a.owner then m.available.toNat + m.allocatedPrincipal.toNat else 0
  /-- A mandate has allocated what its tranches in open loans lend. -/
  allocated : ∀ (id : String) (m : Mandate), s.mandates[id]? = some m →
    m.allocatedPrincipal.toNat = s.totalOpen fun l => trancheShare id l.tranches
  inactive : ∀ (id : String) (m : Mandate), s.mandates[id]? = some m →
    m.active = false → m.available = 0
  debt : s.activeDebt.toNat = s.totalOpen fun l => l.principal.toNat
  tranches : ∀ (id : String) (l : Loan), s.loans[id]? = some l → l.isOpen = true →
    trancheTotal l.tranches = l.principal.toNat
  /-- Reserved FXRP is the collateral of the account's open loan, -/
  collateral : ∀ (key : String) (a : Account), s.accounts[key]? = some a →
    ∀ (id : String) (l : Loan), s.loans[id]? = some l → l.isOpen = true → l.borrower = a.owner →
      a.balances.fxrp.reserved = l.collateralFXRP
  /-- or nothing if it has none. -/
  free : ∀ (key : String) (a : Account), s.accounts[key]? = some a →
    (∀ (id : String) (l : Loan), s.loans[id]? = some l → l.isOpen = true →
      l.borrower ≠ a.owner) → a.balances.fxrp.reserved = 0

/-- A borrower has pledged the collateral of its one open loan. -/
theorem Pointed.pledged_eq {s : State} (h : Pointed s) {id : String} {l : Loan}
    (hl : s.loans[id]? = some l) (hopen : l.isOpen = true) :
    s.pledged l.borrower = l.collateralFXRP.toNat := by
  show (total s.loans fun _ l' => if l'.isOpen = true then
    (if l'.borrower = l.borrower then l'.collateralFXRP.toNat else 0) else 0) = _
  rw [total_eq_single hl]
  · rw [if_pos hopen, if_pos rfl]
  · intro id' l' hl' hne
    by_cases hopen' : l'.isOpen = true
    · rw [if_pos hopen', if_neg fun hb => hne (h.oneOpenLoan id' id l' l hl' hl hopen' hopen hb)]
    · rw [if_neg hopen']

theorem Backed.reservedBacking {s : State} (h : Backed s) : ReservedBacking s := by
  have howner : ∀ (key : String) (a : Account), s.accounts[key]? = some a → a.owner = key := by
    intro key a ha
    rw [← accountAt_of_some ha]
    exact h.pointed.wellformed.owner key
  have hfxrp : ∀ (key : String) (a : Account), s.accounts[key]? = some a →
      a.balances.fxrp.reserved.toNat = s.pledged a.owner := by
    intro key a ha
    rw [howner key a ha, ← h.collateral, accountAt_of_some ha]
  refine ⟨?_, h.allocated, h.inactive, h.debt, ?_, ?_, ?_⟩
  · intro key a ha
    rw [howner key a ha, ← accountAt_of_some ha]
    exact h.reserved key
  · intro id l hl _
    exact (h.pointed.wellformed.loan id l hl).2.total
  · intro key a ha id l hl hopen hborrower
    have hpledged := h.pointed.pledged_eq hl hopen
    rw [hborrower, ← hfxrp key a ha] at hpledged
    exact UInt64.toNat_inj.mp hpledged
  · intro key a ha hnone
    have hzero : s.pledged a.owner = 0 := by
      refine total_eq_zero fun id l hl => ?_
      by_cases hopen : l.isOpen = true
      · rw [if_pos hopen]
        exact if_neg (hnone id l hl hopen)
      · rw [if_neg hopen]
    rw [← hfxrp key a ha] at hzero
    exact UInt64.toNat_inj.mp hzero

/-- Neither the checks before an operation nor `mutate` itself answer a fault. -/
theorem Sound.apply_faultless {host : Host} {ctx : Context} {stored : Bool} {s : State}
    (h : Sound s) (op : Operation) :
    Faultless (op.apply .wrapping host ctx stored s) fun _ => True := by
  unfold Operation.apply mutate
  refine Post.bind (R := fun _ => True) ?_ fun _ _ => ?_
  · cases op with
    | deposit => exact Faultless.rejectIf rfl
    | setMandate => exact Faultless.rejectIf rfl
    | riskTick => exact Faultless.rejectIf rfl
    | seedBackstop => exact Faultless.rejectIf rfl
    | withdraw => exact Faultless.rejectIf rfl
    | withdrawFromMandate => exact Faultless.rejectIf rfl
    | _ => exact Post.ok trivial
  · refine Post.rejectIf (fun _ => rfl) fun _ => ?_
    rw [← h.body_eq]
    refine Post.bind (body_faultless h.toBacked h.room op) fun _ _ => ?_
    exact Post.rejectIf (fun _ => rfl) fun _ => Post.pure trivial

theorem Sound.apply_eq {host : Host} {ctx : Context} {stored : Bool} {s : State} (h : Sound s)
    (op : Operation) :
    op.apply .trapping host ctx stored s = op.apply .wrapping host ctx stored s := by
  unfold Operation.apply mutate
  rw [h.body_eq]

/-! ### Reserved backing over runs -/

/-- A lender offers, a borrower borrows from it and funds its account to repay. -/
def lending : List Operation := [
  .deposit "0xa" "FXRP" 2000000 "d1",
  .deposit "0xc" "USDT0" 4000000 "d2",
  .setMandate "0xc" "m" 4000000 800 7 4000000 0,
  .acceptQuote (sampleQuote "q1" "0xa") "x" 0 (some { xrpUSDE6 := 2000000, updatedAt := 1000 }),
  .deposit "0xa" "USDT0" 1000000 "d3"]

def repayment : Operation := .repay "0xa" 1000000 "r1" 1

instance (s : State) (e : Event) : Decidable (FreshLoanID s e) :=
  decidable_of_iff (∀ id ∈ e.loanID, id ≠ "" ∧ s.loans[id]? = none) Iff.rfl

instance (s : State) : ∀ e : Event, Decidable (KeepsRange s e)
  | .operate _ _ (.deposit ..) => inferInstanceAs (Decidable (_ ∧ _))
  | .operate _ _ (.seedBackstop ..) => inferInstanceAs (Decidable (_ < _))
  | .operate _ _ (.openAccount ..) | .operate _ _ (.setMandate ..) | .operate _ _ (.cancelMandate ..)
  | .operate _ _ (.acceptQuote ..) | .operate _ _ (.riskTick ..) | .operate _ _ (.repay ..)
  | .operate _ _ (.liquidate ..) | .operate _ _ (.withdraw ..)
  | .operate _ _ (.withdrawFromMandate ..) | .confirm .. => inferInstanceAs (Decidable True)

theorem guarded_iff {s : State} {e : Event} : FreshLoanID s e ∧ KeepsRange s e ↔ Guarded s e :=
  ⟨fun h => ⟨h.1, h.2⟩, fun h => ⟨h.fresh, h.range⟩⟩

theorem lending_guarded :
    Machine.Meets (step .wrapping sampleHost) Guarded newState
      (settledCalls .wrapping sampleHost newState lending) := by
  refine meets_settledCalls (fun _ _ _ _ => ⟨nofun, trivial⟩) ?_
  have hcommits : ∀ c ∈ settledCommits .wrapping sampleHost newState lending,
      FreshLoanID c.1 c.2 ∧ KeepsRange c.1 c.2 := by decide +kernel
  exact fun c hc => guarded_iff.mp (hcommits c hc)

/-- **Reserved backing holds in every reachable state**; hence the next operation, whatever it is,
computes in `uint64` what exact arithmetic computes, and answers no fault. -/
theorem reserved_backed (host : Host) (events : List Event)
    (h : Machine.Meets (step .wrapping host) Guarded newState events) :
    ReservedBacking (ledgerAfter .wrapping host events) ∧
      ∀ (ctx : Context) (stored : Bool) (op : Operation),
        op.apply .trapping host ctx stored (ledgerAfter .wrapping host events) =
          op.apply .wrapping host ctx stored (ledgerAfter .wrapping host events) ∧
        ∀ e, op.apply .wrapping host ctx stored (ledgerAfter .wrapping host events) = .error e →
          e.isFault = false := by
  have hsound := sound_ledgerAfter host events h
  refine ⟨hsound.reservedBacking, fun ctx stored op => ⟨hsound.apply_eq op, ?_⟩⟩
  intro e he
  exact (hsound.apply_faultless op).of_error he

theorem reserved_backed_lending :
    ReservedBacking (ledgerAfter .wrapping sampleHost
      (settledCalls .wrapping sampleHost newState lending)) :=
  (reserved_backed sampleHost _ lending_guarded).1

/-! ### Solvency -/

/-- What could be withdrawn or lent is owed and not lent out. -/
def Solvent (s : State) : Prop :=
  (s.totalAccounts (fun a => a.balances.usdt0.available.toNat) +
      s.totalMandates fun m => m.available.toNat : Nat) ≤
    (s.claimsUSDT0 : Int) - s.activeDebt.toNat

/-- What an operation lets leave the vault, in the two assets. -/
def Operation.authorised : Operation → Nat × Nat
  | .withdraw _ asset amount .. =>
      (if asset = "USDT0" then amount.toNat else 0, if asset = "FXRP" then amount.toNat else 0)
  | .withdrawFromMandate _ _ amount .. => (amount.toNat, 0)
  | .acceptQuote q .. => (q.amount.toNat, 0)
  | _ => (0, 0)

/-- What a committed operation does to the claims. -/
structure Conserves (s s' : State) (op : Operation) : Prop where
  usdt0 : (s'.claimsUSDT0 : Int) - s'.activeDebt.toNat =
    s.claimsUSDT0 - s.activeDebt.toNat + op.usdt0Delta
  fxrp : (s'.claimsFXRP : Int) = s.claimsFXRP + op.fxrpDelta
  /-- Nothing is let out that is not there. -/
  covered : (op.authorised.1 : Int) ≤ s.claimsUSDT0 - s.activeDebt.toNat ∧
    op.authorised.2 ≤ s.claimsFXRP

/-- The principal of the open loans, mandate by mandate. -/
theorem Backed.totalAllocated {s : State} (h : Backed s) :
    (s.totalMandates fun m => m.allocatedPrincipal.toNat) = s.activeDebt.toNat := by
  rw [h.debt]
  calc (s.totalMandates fun m => m.allocatedPrincipal.toNat)
      = total s.mandates fun id _ => total s.loans fun _ l =>
          if l.isOpen then trancheShare id l.tranches else 0 := by
        refine total_congr fun id m hm => ?_
        exact h.allocated id m hm
    _ = total s.loans fun _ l => total s.mandates fun id _ =>
          if l.isOpen then trancheShare id l.tranches else 0 := total_comm _ _ _
    _ = s.outstanding := by
        refine total_congr fun id l hl => ?_
        by_cases hopen : l.isOpen = true
        · simp only [if_pos hopen]
          have hformed := (h.pointed.wellformed.loan id l hl).2
          rw [← hformed.total]
          refine total_group_list l.tranches Tranche.mandateID (fun t => t.principal.toNat) ?_
          intro t ht
          obtain ⟨m, hm, _⟩ := hformed.drawn t ht
          exact ⟨m, hm⟩
        · simp only [if_neg hopen]
          exact total_eq_zero fun _ _ _ => rfl

/-- The reserved balances, mandate by mandate. -/
theorem Backed.totalReserved {s : State} (h : Backed s) :
    (s.totalAccounts fun a => a.balances.usdt0.reserved.toNat) =
      s.totalMandates Mandate.liquidity := by
  calc (s.totalAccounts fun a => a.balances.usdt0.reserved.toNat)
      = total s.accounts fun key _ => total s.mandates fun _ m =>
          if m.lender = key then m.liquidity else 0 := by
        refine total_congr fun key a ha => ?_
        rw [← accountAt_of_some ha]
        exact h.reserved key
    _ = s.totalMandates Mandate.liquidity := by
        refine total_group fun id m hm => ?_
        cases ha : s.accounts[m.lender]? with
        | some a => exact Or.inr ⟨a, rfl⟩
        | none =>
            -- no account, hence nothing reserved
            have hle := h.liquidity_le hm
            rw [accountAt_of_none ha] at hle
            exact Or.inl (Nat.le_zero.mp hle)

theorem Backed.solvent {s : State} (h : Backed s) : Solvent s := by
  have hreserved := h.totalReserved
  have hallocated := h.totalAllocated
  have hheld : s.totalAccounts Account.usdt0Held =
      (s.totalAccounts fun a => a.balances.usdt0.available.toNat) +
        s.totalAccounts fun a => a.balances.usdt0.reserved.toNat := total_add
  have hliquidity : s.totalMandates Mandate.liquidity =
      (s.totalMandates fun m => m.available.toNat) +
        s.totalMandates fun m => m.allocatedPrincipal.toNat := total_add
  unfold Solvent State.claimsUSDT0
  omega

/-- What is authorised is what the claims go down by. -/
theorem Operation.authorised_le (op : Operation) :
    op.usdt0Delta ≤ -op.authorised.1 ∨ op.authorised.1 = 0 := by
  cases op with
  | withdraw owner asset amount id nonce =>
      unfold Operation.usdt0Delta Operation.authorised
      by_cases hasset : asset = "USDT0"
      · simp [hasset]
      · simp [hasset]
  | withdrawFromMandate => exact Or.inl le_rfl
  | acceptQuote => exact Or.inl le_rfl
  | _ => exact Or.inr rfl

theorem Operation.authorised_fxrp (op : Operation) :
    op.fxrpDelta ≤ -op.authorised.2 ∨ op.authorised.2 = 0 := by
  cases op with
  | withdraw owner asset amount id nonce =>
      unfold Operation.fxrpDelta Operation.authorised
      by_cases hasset : asset = "FXRP"
      · simp [hasset]
      · simp [hasset]
  | _ => exact Or.inr rfl

/-- **Conservation and solvency**: each committed operation of a run changes the claims by what it
is called for, lets nothing out that is not there, and every state the run reaches is solvent. -/
theorem ledger_solvent (host : Host) (events : List Event)
    (h : Machine.Meets (step .wrapping host) Guarded newState events) :
    Solvent (ledgerAfter .wrapping host events) ∧
      ∀ (before : List Event) (ctx : Context) (stored : Bool) (op : Operation) (after : List Event)
        (s' : State), events = before ++ .operate ctx stored op :: after →
        op.apply .wrapping host ctx stored (ledgerAfter .wrapping host before) = .ok s' →
        Conserves (ledgerAfter .wrapping host before) s' op := by
  refine ⟨(sound_ledgerAfter host events h).toBacked.solvent, ?_⟩
  rintro before ctx stored op after s' rfl hop
  obtain ⟨hbefore, hrest⟩ := Machine.meets_append.mp h
  have hsound := sound_ledgerAfter host before hbefore
  have hstep : step .wrapping host (ledgerAfter .wrapping host before) (.operate ctx stored op) =
      .ok s' := hop
  obtain ⟨hguard, _⟩ := hrest.cons_ok hstep
  obtain ⟨hsound', hmoved⟩ := hsound.operate hguard hop
  have hsolvent := hsound.toBacked.solvent
  have hsolvent' := hsound'.toBacked.solvent
  have hnet := hmoved.net
  have hheld := hmoved.held
  unfold Solvent at hsolvent hsolvent'
  refine ⟨hnet, hheld, ?_, ?_⟩
  · rcases op.authorised_le with hle | hzero
    · omega
    · omega
  · rcases op.authorised_fxrp with hle | hzero
    · omega
    · omega

theorem ledger_solvent_lending :
    Solvent (ledgerAfter .wrapping sampleHost
      (settledCalls .wrapping sampleHost newState lending)) :=
  (ledger_solvent sampleHost _ lending_guarded).1

end QuietLine
