/-
The loan an account points at.

`AcceptQuote` files its loan under an id the borrower chose, without looking
whether that id is empty or taken.  Where every committed acceptance brings an id
of its own, accounts and open loans point at each other in every reachable state,
and hence no borrower has two open loans nor borrows more of a mandate than its
cap.  Where one does not, the loans are no longer sound: the two are equivalent.
-/
import QuietLine.Proofs.Wellformed

namespace QuietLine

open Outcome MapSum MapRel Std Relation

/-! ### What is wanted -/

/-- Accounts and open loans point at each other. -/
structure LoanPointers (s : State) : Prop where
  account : ∀ (key : String) (a : Account), s.accounts[key]? = some a → a.loanID ≠ "" →
    ∃ l, s.loans[a.loanID]? = some l ∧ l.isOpen = true ∧ l.borrower = a.owner
  loan : ∀ (id : String) (l : Loan), s.loans[id]? = some l → l.isOpen = true →
    ∃ a, s.accounts[l.borrower]? = some a ∧ a.loanID = id ∧ id ≠ ""

/-- No borrower has two open loans. -/
def OneOpenLoan (s : State) : Prop :=
  ∀ (id id' : String) (l l' : Loan), s.loans[id]? = some l → s.loans[id']? = some l' →
    l.isOpen = true → l'.isOpen = true → l.borrower = l'.borrower → id = id'

/-- What the mandate `id` has lent `borrower` in open loans. -/
def State.lentTo (s : State) (id borrower : String) : Nat :=
  s.totalOpen fun l => if l.borrower = borrower then trancheShare id l.tranches else 0

/-- No mandate lends a borrower more than its cap. -/
def WithinCaps (s : State) : Prop :=
  ∀ (id borrower : String) (m : Mandate), s.mandates[id]? = some m →
    s.lentTo id borrower ≤ m.perBorrowerCap.toNat

/-- The call, if it is an `AcceptQuote`, does not overwrite a loan. -/
def KeepsRecords (s : State) (e : Event) : Prop :=
  ∀ id, e.loanID = some id → s.loans[id]? = none

/-- The loans of a run are sound: in every state it reaches, and at every call it accepts. -/
structure LoansSound (host : Host) (events : List Event) : Prop where
  pointers : ∀ before after, events = before ++ after →
    LoanPointers (ledgerAfter .wrapping host before)
  oneOpenLoan : ∀ before after, events = before ++ after →
    OneOpenLoan (ledgerAfter .wrapping host before)
  withinCaps : ∀ before after, events = before ++ after →
    WithinCaps (ledgerAfter .wrapping host before)
  records : Machine.Meets (step .wrapping host) KeepsRecords newState events

/-- The call, if it is an `AcceptQuote`, brings a loan id that is neither empty nor taken. -/
def FreshLoanID (s : State) (e : Event) : Prop :=
  ∀ id, e.loanID = some id → id ≠ "" ∧ s.loans[id]? = none

/-! ### The invariant -/

/-- `LoanPointers`, with absent accounts read as empty ones. -/
structure Pointed (s : State) : Prop where
  wellformed : Wellformed s
  unnamed : s.loans[""]? = none
  account : ∀ key, (s.accountAt key).loanID ≠ "" →
    ∃ l, s.loans[(s.accountAt key).loanID]? = some l ∧ l.isOpen = true ∧ l.borrower = key
  loan : ∀ (id : String) (l : Loan), s.loans[id]? = some l → l.isOpen = true →
    (s.accountAt l.borrower).loanID = id

theorem Pointed.named {s : State} (h : Pointed s) {id : String} {l : Loan}
    (hl : s.loans[id]? = some l) : id ≠ "" := by
  rintro rfl
  rw [h.unnamed] at hl
  cases hl

theorem Pointed.quiet {s s' : State} (h : Pointed s) (hq : Quiet s s') : Pointed s' := by
  refine ⟨h.wellformed.calm (.quiet hq), hq.loans.get_none h.unnamed, ?_, ?_⟩
  · intro key hkey
    rw [(hq.accounts key).2] at hkey ⊢
    obtain ⟨l, hl, hopen, hborrower⟩ := h.account key hkey
    obtain ⟨l', hl', hterms, hopen'⟩ := hq.loans.get hl
    exact ⟨l', hl', hopen'.trans hopen, hterms.borrower.trans hborrower⟩
  · intro id l' hl' hopen
    obtain ⟨l, hl, hterms, hopen'⟩ := hq.loans.get' hl'
    rw [(hq.accounts _).2, hterms.borrower]
    exact h.loan id l hl (hopen'.symm.trans hopen)

theorem Pointed.offering {s s' : State} {id : String} {m : Mandate} (h : Pointed s)
    (ho : Offering s s' id m) : Pointed s' := by
  refine ⟨h.wellformed.offering ho, by rw [ho.loans]; exact h.unnamed, ?_, ?_⟩
  · intro key hkey
    rw [(ho.accounts key).2] at hkey ⊢
    rw [ho.loans]
    exact h.account key hkey
  · intro key l hl hopen
    rw [ho.loans] at hl
    rw [(ho.accounts _).2]
    exact h.loan key l hl hopen

/-- Whoever closes a loan is its borrower, and the loan was open. -/
theorem Pointed.closer {s s' : State} {owner id : String} {l : Loan} (h : Pointed s)
    (hc : Closing s s' owner id l) :
    l.isOpen = true ∧ toLower owner = l.borrower ∧ (s.accountAt l.borrower).loanID = id := by
  rcases hc.which with hpoints | ⟨hopen, rfl⟩
  · have hne : (s.accountAt (toLower owner)).loanID ≠ "" := by
      rw [← account_eq, hpoints]
      exact h.named hc.found
    obtain ⟨l', hl', hopen, hborrower⟩ := h.account _ hne
    rw [← account_eq, hpoints, hc.found] at hl'
    cases hl'
    exact ⟨hopen, hborrower.symm, by rw [hborrower, ← account_eq, hpoints]⟩
  · have hborrower := (h.wellformed.loan id l hc.found).2.borrower
    exact ⟨hopen, hborrower, h.loan id l hc.found hopen⟩

theorem Pointed.closing {s s' : State} {owner id : String} {l : Loan} (h : Pointed s)
    (hc : Closing s s' owner id l) : Pointed s' := by
  obtain ⟨hopen, howner, hpoints⟩ := h.closer hc
  obtain ⟨l', hterms, hclosed, hloans⟩ := hc.loans
  have hid : id ≠ "" := h.named hc.found
  have hget : ∀ key : String, s'.loans[key]? = if id = key then some l' else s.loans[key]? := by
    intro key
    rw [hloans, getElem?_insert_eq]
  refine ⟨h.wellformed.closing hc, by rw [hget, if_neg hid]; exact h.unnamed, ?_, ?_⟩
  · intro key hkey
    rw [hc.loanIDs] at hkey ⊢
    by_cases hk : toLower owner = key
    · rw [if_pos hk] at hkey
      exact absurd rfl hkey
    · rw [if_neg hk] at hkey ⊢
      obtain ⟨l₂, hl₂, hopen₂, hborrower₂⟩ := h.account key hkey
      -- another borrower, hence another loan
      have hne : id ≠ (s.accountAt key).loanID := by
        intro heq
        rw [← heq, hc.found] at hl₂
        cases hl₂
        exact hk (howner.trans hborrower₂)
      rw [hget, if_neg hne]
      exact ⟨l₂, hl₂, hopen₂, hborrower₂⟩
  · intro key l₂ hl₂ hopen₂
    rw [hget] at hl₂
    by_cases hk : id = key
    · rw [if_pos hk] at hl₂
      cases hl₂
      rw [hclosed] at hopen₂
      cases hopen₂
    · rw [if_neg hk] at hl₂
      have hpoints₂ := h.loan key l₂ hl₂ hopen₂
      rw [hc.loanIDs, if_neg]
      · exact hpoints₂
      · intro heq
        rw [← heq, howner, hpoints] at hpoints₂
        exact hk hpoints₂

theorem Pointed.opening {s s' : State} {owner id : String} {l : Loan} (h : Pointed s)
    (ho : Opening s s' owner id l) (hid : id ≠ "") (hfresh : s.loans[id]? = none) :
    Pointed s' := by
  have howner : l.borrower = toLower owner :=
    ho.borrower.trans (account_owner h.wellformed owner)
  have hget : ∀ key : String, s'.loans[key]? = if id = key then some l else s.loans[key]? := by
    intro key
    rw [ho.loans, getElem?_insert_eq]
  refine ⟨h.wellformed.opening ho, by rw [hget, if_neg hid]; exact h.unnamed, ?_, ?_⟩
  · intro key hkey
    rw [ho.loanIDs] at hkey ⊢
    by_cases hk : toLower owner = key
    · rw [if_pos hk, hget, if_pos rfl]
      exact ⟨l, rfl, ho.isOpen, howner.trans hk⟩
    · rw [if_neg hk] at hkey ⊢
      obtain ⟨l₂, hl₂, hopen₂, hborrower₂⟩ := h.account key hkey
      rw [hget, if_neg]
      · exact ⟨l₂, hl₂, hopen₂, hborrower₂⟩
      · intro heq
        rw [← heq, hfresh] at hl₂
        cases hl₂
  · intro key l₂ hl₂ hopen₂
    rw [hget] at hl₂
    by_cases hk : id = key
    · rw [if_pos hk] at hl₂
      cases hl₂
      rw [ho.loanIDs, if_pos howner.symm, hk]
    · rw [if_neg hk] at hl₂
      have hpoints₂ := h.loan key l₂ hl₂ hopen₂
      rw [ho.loanIDs, if_neg]
      · exact hpoints₂
      · intro heq
        -- the borrower had no loan
        rw [← heq, ← account_eq, ho.idle] at hpoints₂
        exact h.named hl₂ hpoints₂.symm

theorem Pointed.calms {s s' : State} (h : Pointed s) (hc : ReflTransGen Calm s s') :
    Pointed s' := by
  induction hc with
  | refl => exact h
  | tail _ hcalm ih =>
      cases hcalm with
      | quiet hq => exact ih.quiet hq
      | offering ho => exact ih.offering ho
      | closing hc => exact ih.closing hc

theorem pointed_step {A : Arith} {host : Host} (s : State) (e : Event) (s' : State)
    (h : Pointed s) (hfresh : FreshLoanID s e) (hstep : step A host s e = .ok s') :
    Pointed s' := by
  rcases step_moves hstep with ⟨_, _, _, loanID, _, _, _, rfl, ho⟩ | ⟨_, hmoves⟩
  · obtain ⟨hid, hnew⟩ := hfresh loanID rfl
    exact h.opening ho hid hnew
  · exact h.calms hmoves

theorem pointed_newState : Pointed newState :=
  ⟨wellformed_newState, by simp [newState], fun _ h => by simp [newState, State.accountAt] at h,
    fun _ _ h => by simp [newState] at h⟩

/-- **Where loan ids are fresh, accounts and loans point at each other**, under either
arithmetic. -/
theorem pointed_ledgerAfter (A : Arith) (host : Host) (events : List Event)
    (h : Machine.Meets (step A host) FreshLoanID newState events) :
    Pointed (ledgerAfter A host events) :=
  Machine.invariant_of_meets pointed_step pointed_newState events h

/-- A loan is on the books exactly when an acceptance brought its id. -/
theorem mem_loans_ledgerAfter (A : Arith) (host : Host) (events : List Event) (id : String) :
    (∃ l, (ledgerAfter A host events).loans[id]? = some l) ↔
      ∃ c ∈ Machine.commits (step A host) newState events, c.2.loanID = some id := by
  have hcalm : ∀ s s', ReflTransGen Calm s s' →
      ((∃ l, s'.loans[id]? = some l) ↔ ∃ l, s.loans[id]? = some l) := by
    intro s s' hmoves
    induction hmoves with
    | refl => exact Iff.rfl
    | tail _ hcalm ih =>
        rw [← ih]
        exact hcalm.loans_iff id
  have hstep : ∀ s e s', step A host s e = .ok s' →
      ((∃ l, s'.loans[id]? = some l) ↔ (∃ l, s.loans[id]? = some l) ∨ e.loanID = some id) := by
    intro s e s' hstep
    rcases step_moves hstep with ⟨_, _, q, loanID, _, _, l, rfl, ho⟩ | ⟨hnone, hmoves⟩
    · have hget : s'.loans[id]? = if loanID = id then some l else s.loans[id]? := by
        rw [ho.loans, getElem?_insert_eq]
      rw [hget]
      by_cases hid : loanID = id
      · simp [hid, Event.loanID, Operation.loanID]
      · simp [hid, Event.loanID, Operation.loanID]
    · rw [hcalm s s' hmoves]
      simp [hnone]
  have htracked : (∃ l, (ledgerAfter A host events).loans[id]? = some l) ↔
      (∃ l, newState.loans[id]? = some l) ∨ _ :=
    Machine.tracked (P := fun s : State => ∃ l, s.loans[id]? = some l)
      (M := fun e => e.loanID = some id) hstep newState events
  rw [htracked]
  simp [newState]

/-- Where the acceptances of a run name loan ids that are not empty and none of them twice, the
ids are fresh. -/
theorem freshLoanID_of_nodup (A : Arith) (host : Host) {events : List Event}
    (hnamed : "" ∉ events.filterMap Event.loanID) (hnodup : (events.filterMap Event.loanID).Nodup) :
    Machine.Meets (step A host) FreshLoanID newState events := by
  intro c hc id hid
  obtain ⟨before, after, s', rfl, hstate, _⟩ := Machine.exists_prefix_of_mem_commits hc
  refine ⟨?_, ?_⟩
  · rintro rfl
    exact hnamed (List.mem_filterMap.mpr ⟨c.2, by simp, hid⟩)
  · rw [hstate]
    cases hl : (Machine.run (step A host) newState before).loans[id]? with
    | none => rfl
    | some l =>
        -- an earlier acceptance would have brought the same id
        obtain ⟨c', hc', hid'⟩ := (mem_loans_ledgerAfter A host before id).mp ⟨l, hl⟩
        obtain ⟨before', after', _, rfl, _, _⟩ := Machine.exists_prefix_of_mem_commits hc'
        simp [List.filterMap_append, hid, hid', List.nodup_append] at hnodup

/-! ### What follows from it -/

theorem Pointed.pointers {s : State} (h : Pointed s) : LoanPointers s := by
  refine ⟨?_, ?_⟩
  · intro key a ha hne
    have hat := accountAt_of_some ha
    rw [← hat] at hne ⊢
    obtain ⟨l, hl, hopen, hborrower⟩ := h.account key hne
    exact ⟨l, hl, hopen, hborrower.trans (h.wellformed.owner key).symm⟩
  · intro id l hl hopen
    have hpoints := h.loan id l hl hopen
    have hid := h.named hl
    cases ha : s.accounts[l.borrower]? with
    | none =>
        rw [accountAt_of_none ha] at hpoints
        exact absurd hpoints.symm hid
    | some a =>
        rw [accountAt_of_some ha] at hpoints
        exact ⟨a, rfl, hpoints, hid⟩

theorem Pointed.oneOpenLoan {s : State} (h : Pointed s) : OneOpenLoan s := by
  intro id id' l l' hl hl' hopen hopen' hborrower
  rw [← h.loan id l hl hopen, ← h.loan id' l' hl' hopen', hborrower]

/-- A sum over the open loans of one borrower is one loan's part, or nothing. -/
theorem Pointed.totalOpen_le {s : State} (h : Pointed s) {f : Loan → Nat} {borrower : String}
    {c : Nat} (hle : ∀ (id : String) (l : Loan), s.loans[id]? = some l → l.isOpen = true →
      l.borrower = borrower → f l ≤ c) :
    (s.totalOpen fun l => if l.borrower = borrower then f l else 0) ≤ c := by
  show (total s.loans fun _ l =>
    if l.isOpen = true then (if l.borrower = borrower then f l else 0) else 0) ≤ c
  by_cases hex : ∃ (id : String) (l : Loan),
      s.loans[id]? = some l ∧ l.isOpen = true ∧ l.borrower = borrower
  · obtain ⟨id, l, hl, hopen, hborrower⟩ := hex
    rw [total_eq_single hl]
    · rw [if_pos hopen, if_pos hborrower]
      exact hle id l hl hopen hborrower
    · intro id' l' hl' hne
      by_cases hopen' : l'.isOpen = true
      · by_cases hborrower' : l'.borrower = borrower
        · exact absurd (h.oneOpenLoan id' id l' l hl' hl hopen' hopen
            (hborrower'.trans hborrower.symm)) hne
        · rw [if_pos hopen', if_neg hborrower']
      · rw [if_neg hopen']
  · rw [total_eq_zero]
    · exact Nat.zero_le _
    · intro id l hl
      by_cases hopen : l.isOpen = true
      · rw [if_pos hopen, if_neg fun hb => hex ⟨id, l, hl, hopen, hb⟩]
      · rw [if_neg hopen]

theorem Pointed.withinCaps {s : State} (h : Pointed s) : WithinCaps s := by
  intro id borrower m hm
  refine h.totalOpen_le fun key l hl _ _ => ?_
  have hformed := (h.wellformed.loan key l hl).2
  refine trancheShare_le hformed.nodup fun t ht hid => ?_
  obtain ⟨m', hm', _, hcap⟩ := hformed.drawn t ht
  rw [hid, hm] at hm'
  cases hm'
  exact hcap

/-! ### Exactly when the loans are sound -/

/-- An acceptance under the empty id leaves an open loan that no account points at. -/
theorem Opening.named {s s' : State} {owner id : String} {l : Loan}
    (ho : Opening s s' owner id l) (h : LoanPointers s') : id ≠ "" := by
  have hl : s'.loans[id]? = some l := by rw [ho.loans, getElem?_insert_eq, if_pos rfl]
  obtain ⟨_, _, _, hid⟩ := h.loan id l hl ho.isOpen
  exact hid

/-- **The loans of a run are sound exactly when every acceptance it commits brings a loan id that
is neither empty nor taken.** -/
theorem loansSound_iff (host : Host) (events : List Event) :
    LoansSound host events ↔
      Machine.Meets (step .wrapping host) FreshLoanID newState events := by
  constructor
  · intro h c hc id hid
    refine ⟨?_, h.records c hc id hid⟩
    obtain ⟨before, after, s', hevents, hstate, hstep⟩ := Machine.exists_prefix_of_mem_commits hc
    have hreach : ledgerAfter .wrapping host (before ++ [c.2]) = s' := by
      rw [ledgerAfter, Machine.run_append, ← hstate]
      exact Machine.next_ok hstep
    have hpointers := h.pointers (before ++ [c.2]) after (by simp [hevents])
    rw [hreach] at hpointers
    rcases step_moves hstep with ⟨_, _, _, loanID, _, _, _, he, ho⟩ | ⟨hnone, _⟩
    · rw [he] at hid
      cases hid
      exact ho.named hpointers
    · rw [hnone] at hid
      cases hid
  · intro h
    have hpointed : ∀ before after, events = before ++ after →
        Pointed (ledgerAfter .wrapping host before) := by
      rintro before after rfl
      exact pointed_ledgerAfter .wrapping host before (Machine.meets_append.mp h).1
    refine ⟨fun b a hba => (hpointed b a hba).pointers, fun b a hba => (hpointed b a hba).oneOpenLoan,
      fun b a hba => (hpointed b a hba).withinCaps, h.mono ?_⟩
    intro s e hfresh id hid
    exact (hfresh id hid).2

/-- A loan of one XRP-dollar against two XRP, drawn on the mandate `m` of `0xc`. -/
def sampleQuote (requestID borrower : String) : Quote :=
  { requestID, borrower, amount := 1000000, requestedAmount := 1000000, termDays := 7,
    collateralFXRP := 2000000, requestedCollateralFXRP := 2000000, isPartial := false,
    lenderAPRBPS := 800, borrowerAPRBPS := 850, maxAPRBPS := 1000,
    tranches := [{ mandateID := "m", lender := "0xc", principal := 1000000, aprBPS := 800 }],
    expiresAt := 2000, priceE6 := 2000000 }

/-- Two borrowers accept their quotes under one loan id. -/
def sharedLoanID : List Operation := [
  .deposit "0xa" "FXRP" 2000000 "d1",
  .deposit "0xb" "FXRP" 2000000 "d2",
  .deposit "0xc" "USDT0" 4000000 "d3",
  .setMandate "0xc" "m" 4000000 800 7 4000000 0,
  .acceptQuote (sampleQuote "q1" "0xa") "x" 0 (some { xrpUSDE6 := 2000000, updatedAt := 1000 }),
  .acceptQuote (sampleQuote "q2" "0xb") "x" 0 (some { xrpUSDE6 := 2000000, updatedAt := 1000 })]

/-- The second acceptance replaces the record of the first borrower, whose account then points at
a loan of the other. -/
theorem sharedLoanID_unsound :
    ¬ LoansSound sampleHost (settledCalls .wrapping sampleHost newState sharedLoanID) := by
  intro h
  obtain ⟨haccount, _⟩ := h.pointers _ [] (List.append_nil _).symm
  rw [ledgerAfter, run_settledCalls] at haccount
  generalize hs : settledState .wrapping sampleHost newState sharedLoanID = s at haccount
  have hends : (s.accounts["0xa"]?.map Account.loanID, s.accounts["0xa"]?.map Account.owner,
      s.loans["x"]?.map Loan.borrower) = (some "x", some "0xa", some "0xb") := by
    rw [← hs]
    decide +kernel
  simp only [Prod.mk.injEq, Option.map_eq_some_iff] at hends
  obtain ⟨⟨a, ha, hloanID⟩, ⟨a', ha', howner⟩, ⟨l, hl, hborrower⟩⟩ := hends
  rw [ha] at ha'
  cases ha'
  obtain ⟨l', hl', _, hborrower'⟩ := haccount "0xa" a ha (by rw [hloanID]; decide)
  rw [hloanID, hl] at hl'
  cases hl'
  rw [hborrower, howner] at hborrower'
  exact absurd hborrower' (by decide)

end QuietLine
