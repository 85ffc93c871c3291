/-
What is filed where, in every reachable state.

Accounts are filed under the lower-case address of their owner, mandates and loans
under their ids, and a loan keeps the terms it was quoted on: its tranches add up
to its principal, its rate covers theirs, and each is drawn within the cap of a
mandate that the ledger still has.  No run can break any of this, whatever ids and
amounts it is given.
-/
import QuietLine.Proofs.Moves

namespace QuietLine

open Outcome MapSum MapRel Std Relation

/-- The loan `l` stands on terms that the mandates of `s` offer. -/
structure Loan.Formed (s : State) (l : Loan) : Prop where
  borrower : toLower l.borrower = l.borrower
  positive : 0 < l.principal.toNat
  total : trancheTotal l.tranches = l.principal.toNat
  rate_pos : 0 < l.borrowerAPRBPS.toNat
  rate : weighted l.tranches ≤ l.principal.toNat * l.borrowerAPRBPS.toNat
  nodup : (l.tranches.map Tranche.mandateID).Nodup
  drawn : ∀ t ∈ l.tranches, ∃ m, s.mandates[t.mandateID]? = some m ∧ t.lender = m.lender ∧
    t.principal.toNat ≤ m.perBorrowerCap.toNat

structure Wellformed (s : State) : Prop where
  owner : ∀ key, (s.accountAt key).owner = key
  mandate : ∀ (id : String) (m : Mandate), s.mandates[id]? = some m →
    m.id = id ∧ toLower m.lender = m.lender
  loan : ∀ (id : String) (l : Loan), s.loans[id]? = some l → l.id = id ∧ l.Formed s

/-! ### Loans keep their terms -/

theorem Loan.Formed.sameTerms {s : State} {l l' : Loan} (h : l.Formed s) (hl : l.SameTerms l') :
    l'.Formed s := by
  refine ⟨?_, ?_, ?_, ?_, ?_, ?_, ?_⟩
  · rw [hl.borrower]; exact h.borrower
  · rw [hl.principal]; exact h.positive
  · rw [hl.principal, hl.tranches]; exact h.total
  · rw [hl.borrowerAPRBPS]; exact h.rate_pos
  · rw [hl.principal, hl.tranches, hl.borrowerAPRBPS]; exact h.rate
  · rw [hl.tranches]; exact h.nodup
  · rw [hl.tranches]; exact h.drawn

/-- The mandates a loan is drawn on stay on the books. -/
theorem Loan.Formed.mandates {s s' : State} {l : Loan} (h : l.Formed s)
    (hkept : ∀ (id : String) (m : Mandate), s.mandates[id]? = some m →
      ∃ m', s'.mandates[id]? = some m' ∧ m.SameOffer m') : l.Formed s' := by
  refine ⟨h.borrower, h.positive, h.total, h.rate_pos, h.rate, h.nodup, ?_⟩
  intro t ht
  obtain ⟨m, hm, hlender, hcap⟩ := h.drawn t ht
  obtain ⟨m', hm', hsame⟩ := hkept _ m hm
  refine ⟨m', hm', ?_, ?_⟩
  · rw [hsame.lender]; exact hlender
  · rw [hsame.perBorrowerCap]; exact hcap

/-- A mandate no tranche names lends nothing. -/
theorem trancheShare_eq_zero {ts : List Tranche} {id : String}
    (h : id ∉ ts.map Tranche.mandateID) : trancheShare id ts = 0 := by
  induction ts with
  | nil => rfl
  | cons t rest ih =>
      rw [List.map_cons, List.mem_cons, not_or] at h
      rw [trancheShare_cons, if_neg fun h0 => h.1 h0.symm, ih h.2]

/-- Where no mandate is drawn on twice, what it lends is one tranche. -/
theorem trancheShare_le {ts : List Tranche} {id : String} {c : Nat}
    (hnodup : (ts.map Tranche.mandateID).Nodup)
    (hle : ∀ t ∈ ts, t.mandateID = id → t.principal.toNat ≤ c) : trancheShare id ts ≤ c := by
  induction ts with
  | nil => exact Nat.zero_le _
  | cons t rest ih =>
      rw [List.map_cons, List.nodup_cons] at hnodup
      rw [trancheShare_cons]
      by_cases hid : t.mandateID = id
      · rw [if_pos hid, trancheShare_eq_zero (hid ▸ hnodup.1)]
        exact hle t (by simp) hid
      · rw [if_neg hid, Nat.zero_add]
        exact ih hnodup.2 fun t' ht' => hle t' (List.mem_cons_of_mem _ ht')

theorem Loan.Formed.lendersAgree {s : State} {l : Loan} (h : l.Formed s) (hs : Wellformed s) :
    LendersAgree s l.tranches := by
  intro t ht m hm
  obtain ⟨m', hm', hlender, _⟩ := h.drawn t ht
  rw [hm] at hm'
  cases hm'
  rw [hlender]
  exact (hs.mandate _ _ hm).2

/-! ### The moves keep it -/

theorem account_owner {s : State} (h : Wellformed s) (owner : String) :
    (s.account owner).owner = toLower owner :=
  h.owner (toLower owner)

/-- Where loans only move along, everything filed stays filed. -/
theorem Wellformed.keep {s s' : State} (h : Wellformed s)
    (howner : ∀ key, (s'.accountAt key).owner = (s.accountAt key).owner)
    (hm : Pointwise (fun _ m m' => m.SameOffer m') s.mandates s'.mandates)
    (hl : ∀ (id : String) (l' : Loan), s'.loans[id]? = some l' →
      ∃ l, s.loans[id]? = some l ∧ l.SameTerms l') : Wellformed s' := by
  refine ⟨fun key => (howner key).trans (h.owner key), ?_, ?_⟩
  · intro id m' hm'
    obtain ⟨m, hget, hsame⟩ := hm.get' hm'
    rw [hsame.id, hsame.lender]
    exact h.mandate id m hget
  · intro id l' hl'
    obtain ⟨l, hget, hsame⟩ := hl id l' hl'
    obtain ⟨hid, hformed⟩ := h.loan id l hget
    exact ⟨hsame.id.trans hid, (hformed.sameTerms hsame).mandates fun _ _ hm₀ => hm.get hm₀⟩

theorem Wellformed.offering {s s' : State} {id : String} {m : Mandate} (h : Wellformed s)
    (ho : Offering s s' id m) : Wellformed s' := by
  have hget : ∀ key : String, s'.mandates[key]? = if id = key then some m else s.mandates[key]? := by
    intro key
    rw [ho.mandates, getElem?_insert_eq]
  refine ⟨fun key => (ho.accounts key).1.trans (h.owner key), ?_, ?_⟩
  · intro key m' hm'
    rw [hget] at hm'
    by_cases hkey : id = key
    · rw [if_pos hkey] at hm'
      cases hm'
      obtain ⟨owner, hlender⟩ := ho.lender
      rw [hlender, account_owner h, toLower_toLower]
      exact ⟨ho.filed.trans hkey, rfl⟩
    · rw [if_neg hkey] at hm'
      exact h.mandate key m' hm'
  · intro key l hl
    rw [ho.loans] at hl
    obtain ⟨hid, hformed⟩ := h.loan key l hl
    refine ⟨hid, hformed.mandates fun key' m' hm' => ⟨m', ?_, Mandate.SameOffer.refl m'⟩⟩
    rw [hget, if_neg, hm']
    rintro rfl
    rw [ho.fresh] at hm'
    cases hm'

theorem Wellformed.closing {s s' : State} {owner id : String} {l : Loan} (h : Wellformed s)
    (hc : Closing s s' owner id l) : Wellformed s' := by
  obtain ⟨l', hterms, _, hloans⟩ := hc.loans
  refine h.keep hc.owners hc.mandates ?_
  intro key l'' hl''
  rw [hloans, getElem?_insert_eq] at hl''
  by_cases hkey : id = key
  · rw [if_pos hkey] at hl''
    cases hl''
    exact ⟨l, hkey ▸ hc.found, hterms⟩
  · rw [if_neg hkey] at hl''
    exact ⟨l'', hl'', Loan.SameTerms.refl l''⟩

/-- An accepted quote makes a loan whose terms stand. -/
theorem Opening.formed {s s' : State} {owner id : String} {l : Loan} (h : Wellformed s)
    (ho : Opening s s' owner id l) : l.Formed s := by
  obtain ⟨q, hq, hprincipal, htranches, hrate⟩ := ho.quoted
  refine ⟨?_, ?_, ?_, ?_, ?_, ?_, ?_⟩
  · rw [ho.borrower, account_owner h, toLower_toLower]
  · rw [hprincipal]; exact hq.funded.amount_pos
  · rw [hprincipal, htranches]; exact hq.funded.total
  · rw [hrate]; exact hq.funded.rate_pos
  · rw [hprincipal, htranches, hrate]; exact hq.funded.rate
  · rw [htranches]; exact hq.nodup fun key m hm => (h.mandate key m hm).1
  · intro t ht
    rw [htranches] at ht
    obtain ⟨m, ⟨key, hm⟩, hdrawn⟩ := hq.drawn t ht
    have hkey : t.mandateID = key := hdrawn.id.trans (h.mandate key m hm).1
    exact ⟨m, hkey ▸ hm, hdrawn.lender, hdrawn.within_cap⟩

theorem Wellformed.opening {s s' : State} {owner id : String} {l : Loan} (h : Wellformed s)
    (ho : Opening s s' owner id l) : Wellformed s' := by
  refine ⟨fun key => (ho.owners key).trans (h.owner key), ?_, ?_⟩
  · intro key m' hm'
    obtain ⟨m, hget, hsame⟩ := ho.mandates.get' hm'
    rw [hsame.id, hsame.lender]
    exact h.mandate key m hget
  · intro key l' hl'
    rw [ho.loans, getElem?_insert_eq] at hl'
    by_cases hkey : id = key
    · rw [if_pos hkey] at hl'
      cases hl'
      exact ⟨ho.filed.trans hkey, (ho.formed h).mandates fun _ _ hm => ho.mandates.get hm⟩
    · rw [if_neg hkey] at hl'
      obtain ⟨hid, hformed⟩ := h.loan key l' hl'
      exact ⟨hid, hformed.mandates fun _ _ hm => ho.mandates.get hm⟩

theorem Wellformed.calm {s s' : State} (h : Wellformed s) (hc : Calm s s') : Wellformed s' := by
  cases hc with
  | quiet hq =>
      refine h.keep (fun key => (hq.accounts key).1) hq.mandates ?_
      intro id l' hl'
      obtain ⟨l, hget, hsame, _⟩ := hq.loans.get' hl'
      exact ⟨l, hget, hsame⟩
  | offering ho => exact h.offering ho
  | closing hc => exact h.closing hc

/-! ### Steps and runs -/

/-- The loan id a call brings, if it is an `AcceptQuote`. -/
def Event.loanID : Event → Option String
  | .operate _ _ op => op.loanID
  | .confirm .. => none

/-- What an accepted call does: one loan opened by `AcceptQuote`, or moves that open none. -/
theorem step_moves {A : Arith} {host : Host} {s s' : State} {e : Event}
    (h : step A host s e = .ok s') :
    (∃ ctx stored q loanID nonce observed l,
      e = .operate ctx stored (.acceptQuote q loanID nonce observed) ∧
      Opening s s' q.borrower loanID l) ∨
    (e.loanID = none ∧ ReflTransGen Calm s s') := by
  cases e with
  | operate ctx stored op =>
      obtain ⟨_, _, next, hbody, rfl⟩ := Operation.apply_ok h
      have hseal : Calm next (anchored host op.kind op.operationID s next) :=
        .quiet (Quiet.of_holders (SameHolders.of_accounts rfl) rfl rfl)
      rcases body_moves hbody with ⟨q, loanID, nonce, observed, l, rfl, ho⟩ | ⟨hnone, hmoves⟩
      · exact Or.inl ⟨ctx, stored, q, loanID, nonce, observed, l, rfl,
          ⟨ho.idle, ho.filed, ho.borrower, ho.isOpen, ho.quoted, ho.owners, ho.loanIDs, ho.mandates,
            ho.loans⟩⟩
      · exact Or.inr ⟨hnone, hmoves.tail hseal⟩
  | confirm sequence root stored =>
      obtain rfl := confirmAnchor_ok h
      exact Or.inr ⟨rfl, ReflTransGen.single
        (.quiet (Quiet.of_holders (SameHolders.of_accounts rfl) rfl rfl))⟩

theorem Wellformed.calms {s s' : State} (h : Wellformed s) (hc : ReflTransGen Calm s s') :
    Wellformed s' := by
  induction hc with
  | refl => exact h
  | tail _ hcalm ih => exact ih.calm hcalm

theorem wellformed_step {A : Arith} {host : Host} (s : State) (e : Event) (s' : State)
    (h : Wellformed s) (hstep : step A host s e = .ok s') : Wellformed s' := by
  rcases step_moves hstep with ⟨_, _, _, _, _, _, _, _, ho⟩ | ⟨_, hmoves⟩
  · exact h.opening ho
  · exact h.calms hmoves

theorem wellformed_newState : Wellformed newState :=
  ⟨fun _ => by simp [newState, State.accountAt], fun _ _ h => by simp [newState] at h,
    fun _ _ h => by simp [newState] at h⟩

/-- **Every reachable state is well formed**, under either arithmetic. -/
theorem wellformed_ledgerAfter (A : Arith) (host : Host) (events : List Event) :
    Wellformed (ledgerAfter A host events) :=
  Machine.invariant wellformed_step wellformed_newState events

end QuietLine
