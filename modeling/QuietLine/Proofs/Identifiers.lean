/-
Which identifiers a run has used, and when the ledger says so.

Nine kinds of operation record their identifier in the one set `Processed`, and
`SetMandate` files its mandate under its own.  An operation is answered
`ErrDuplicate` exactly when its identifier is already there; nothing else in the
code answers it.  Since the set is shared, the identifier may have been recorded by
an operation of another kind, and the operation it belongs to is then refused.
-/
import QuietLine.Proofs.Wellformed

namespace QuietLine

open Outcome MapSum MapRel Std

/-! ### Namespaces -/

/-- The operations that record their identifier in `Processed`. -/
def OpKind.recorded : OpKind → Bool
  | .setMandate | .cancelMandate => false
  | _ => true

/-- The identifier of the operation is already taken in the state. -/
def Operation.Taken (s : State) (op : Operation) : Prop :=
  match op.kind with
  | .setMandate => op.operationID ∈ s.mandates
  | .cancelMandate => False
  | _ => op.operationID ∈ s.processed

/-- The event commits an operation that records `id` in `Processed`. -/
def Event.records (id : String) : Event → Prop
  | .operate _ _ op => op.kind.recorded = true ∧ op.operationID = id
  | .confirm .. => False

/-- The event commits `SetMandate` of `id`. -/
def Event.files (id : String) : Event → Prop
  | .operate _ _ op => op.kind = .setMandate ∧ op.operationID = id
  | .confirm .. => False

/-! ### What each operation records -/

section Operations

variable {A : Arith} {host : Host} {ctx : Context} {s s' : State} {owner id : String} {n : Nat}
  {amount : UInt64}

theorem liquidateInState_processed {l : Loan} (h : liquidateInState A s id l = .ok s') :
    s'.processed = s.processed := by
  obtain ⟨_, _, _, _, _, _, _, s₁, _, _, _, _, _, _, _, _, hdist, _, rfl⟩ := liquidateInState_ok h
  show s₁.processed = s.processed
  rw [hdist.frame]
  rfl

theorem tickLoan_processed {price : Price} (h : tickLoan A ctx price s id = .ok s') :
    s'.processed = s.processed := by
  rcases tickLoan_ok h with rfl | ⟨l, l₁, _, _, _, _, rfl | ⟨_, hliq⟩⟩
  · rfl
  · rfl
  · have hsame : s'.processed = (s.putLoan id l₁).processed := liquidateInState_processed hliq
    exact hsame

theorem tickLoans_processed {price : Price} {ids : List String}
    (h : ids.foldlM (tickLoan A ctx price) s = .ok s') : s'.processed = s.processed := by
  refine foldlM_ok (R := fun _ (s s' : State) => s'.processed = s.processed) (fun _ => rfl) ?_ h
  intro id rest s s₁ s₂ hfirst hrest
  exact hrest.trans (tickLoan_processed hfirst)

/-- A committed operation found its identifier free, and has recorded it. -/
theorem body_processed {op : Operation} (h : op.body A host ctx s = .ok s')
    (hrec : op.kind.recorded = true) :
    op.operationID ∉ s.processed ∧
      ∀ x, x ∈ s'.processed ↔ x = op.operationID ∨ x ∈ s.processed := by
  cases op with
  | openAccount owner id n =>
      obtain ⟨hnew, _, rfl⟩ := openAccount_ok h
      exact ⟨hnew, fun x => mem_processed_markProcessed _ _⟩
  | deposit owner asset amount id =>
      obtain ⟨asset', _, h⟩ := bind_eq_ok.mp h
      obtain ⟨hnew, _, _, _, _, rfl⟩ := deposit_ok h
      exact ⟨hnew, fun x => mem_processed_markProcessed s _⟩
  | setMandate owner id amount minAPR termMask cap n => cases hrec
  | cancelMandate owner id n => cases hrec
  | acceptQuote q loanID n observed =>
      obtain ⟨hnew, _, _, _, fxrp', s₁, l, _, _, _, _, hall, _, _, _, rfl⟩ := acceptQuote_ok h
      have hsame : s₁.processed = s.processed := by rw [hall.frame]
      refine ⟨hnew, fun x => ?_⟩
      rw [← hsame]
      exact mem_processed_markProcessed s₁ _
  | riskTick price id =>
      obtain ⟨hnew, s₁, hloop, rfl⟩ := riskTick_ok h
      have hsame : s₁.processed = ({ s with price } : State).processed := tickLoans_processed hloop
      replace hsame : s₁.processed = s.processed := hsame
      refine ⟨hnew, fun x => ?_⟩
      rw [← hsame]
      exact mem_processed_markProcessed s₁ _
  | repay owner amount id n =>
      obtain ⟨hnew, _, _, _, _, _, _, s₁, _, _, _, _, _, _, _, _, _, hdist, _, _, _, rfl⟩ := repay_ok h
      have hsame : s₁.processed = s.processed := by rw [hdist.frame]; rfl
      refine ⟨hnew, fun x => ?_⟩
      rw [← hsame]
      exact mem_processed_markProcessed s₁ _
  | liquidate loanID id =>
      obtain ⟨hnew, _, s₁, _, _, hliq, rfl⟩ := liquidate_ok h
      have hsame : s₁.processed = s.processed := liquidateInState_processed hliq
      refine ⟨hnew, fun x => ?_⟩
      rw [← hsame]
      exact mem_processed_markProcessed s₁ _
  | seedBackstop amount id =>
      obtain ⟨hnew, _, _, rfl⟩ := seedBackstop_ok h
      exact ⟨hnew, fun x => mem_processed_markProcessed s _⟩
  | withdraw owner asset amount id n =>
      obtain ⟨asset', _, h⟩ := bind_eq_ok.mp h
      obtain ⟨hnew, _, s₁, bal', _, hdrawn, rfl⟩ := withdraw_ok h
      have hsame : s₁.processed = s.processed := by rw [hdrawn.frame]
      refine ⟨hnew, fun x => ?_⟩
      rw [← hsame]
      exact mem_processed_markProcessed s₁ _
  | withdrawFromMandate owner mandateID amount id n =>
      obtain ⟨hnew, _, _, _, _, _, _, _, _, _, _, rfl⟩ := withdrawFromMandate_ok h
      exact ⟨hnew, fun x => mem_processed_markProcessed s _⟩

/-- The two operations without a recorded identifier leave the set alone. -/
theorem body_unprocessed {op : Operation} (h : op.body A host ctx s = .ok s')
    (hrec : op.kind.recorded = false) : s'.processed = s.processed := by
  cases op with
  | setMandate owner id amount minAPR termMask cap n =>
      obtain ⟨_, _, _, _, _, rfl⟩ := setMandate_ok h
      rfl
  | cancelMandate owner id n =>
      obtain ⟨_, _, _, _, _, _, _, _, rfl⟩ := cancelMandate_ok h
      rfl
  | _ => cases hrec

end Operations

/-! ### Nothing else answers `ErrDuplicate` -/

/-- The program never answers `ErrDuplicate`. -/
def NeverDuplicate {α : Type} (x : Except LedgerError α) : Prop :=
  Post x (fun _ => True) fun e => e ≠ .duplicate

namespace NeverDuplicate

variable {α β : Type} {x : Except LedgerError α} {f : α → Except LedgerError β}

theorem ok (a : α) : NeverDuplicate (.ok a : Except LedgerError α) := trivial

theorem pure (a : α) : NeverDuplicate (Pure.pure a : Except LedgerError α) := trivial

theorem bind (hx : NeverDuplicate x) (hf : ∀ a, NeverDuplicate (f a)) :
    NeverDuplicate (x >>= f) :=
  Post.bind hx fun a _ => hf a

theorem rejectIf {bad : Prop} [Decidable bad] {err : LedgerError}
    {f : Unit → Except LedgerError β} (herr : err ≠ .duplicate) (hf : NeverDuplicate (f ())) :
    NeverDuplicate (Outcome.rejectIf bad err >>= f) :=
  Post.rejectIf (fun _ => herr) fun _ => hf

theorem orElse {o : Option α} {err : LedgerError} (herr : err ≠ .duplicate)
    (hf : ∀ a, NeverDuplicate (f a)) : NeverDuplicate (Outcome.orElse err o >>= f) :=
  Post.orElse (fun _ => herr) fun a _ => hf a

theorem foldlM {f : β → α → Except LedgerError β} (hf : ∀ b a, NeverDuplicate (f b a))
    (xs : List α) (b : β) : NeverDuplicate (xs.foldlM f b) :=
  Post.foldlM (fun _ _ => True) (fun a _ b _ => hf b a) trivial

theorem ite {c : Prop} [Decidable c] {x y : Except LedgerError α} (hx : NeverDuplicate x)
    (hy : NeverDuplicate y) : NeverDuplicate (if c then x else y) := by
  by_cases h : c
  · rw [if_pos h]; exact hx
  · rw [if_neg h]; exact hy

theorem of_error (h : ∀ e, x = .error e → e ≠ .duplicate) : NeverDuplicate x :=
  Post.of_forall (fun _ _ => trivial) h

theorem ne {e : LedgerError} (hx : NeverDuplicate x) (he : x = .error e) : e ≠ .duplicate := by
  rw [he] at hx
  exact hx

theorem vacuous {P : Prop} (hx : NeverDuplicate x) :
    Post x (fun _ => True) fun e => e = .duplicate → P :=
  Post.of_forall (fun _ _ => trivial) fun _ he h => absurd h (hx.ne he)

end NeverDuplicate

section Answers

open NeverDuplicate

theorem checkedAdd_answers (a b : UInt64) : NeverDuplicate (checkedAdd a b) :=
  of_error fun _ h => by rw [checkedAdd_error h]; decide

theorem checkedSub_answers (a b : UInt64) : NeverDuplicate (checkedSub a b) :=
  of_error fun _ h => by rw [(checkedSub_error h).1]; decide

theorem mulDivBy_answers (values denominators : List UInt64) (roundUp : Bool) :
    NeverDuplicate (mulDivBy values denominators roundUp) :=
  of_error fun _ h => by rcases mulDivBy_error h with rfl | rfl <;> decide

theorem add_answers (A : Arith) (a b : UInt64) : NeverDuplicate (A.add a b) := by
  cases A with
  | wrapping => exact ok _
  | trapping => exact ite (ok _) (fun h => by cases h)

theorem sub_answers (A : Arith) (a b : UInt64) : NeverDuplicate (A.sub a b) := by
  cases A with
  | wrapping => exact ok _
  | trapping => exact ite (ok _) (fun h => by cases h)

theorem withContext_answers {α : Type} (context : String) (x : Except LedgerError α) :
    NeverDuplicate (withContext context x) := by
  cases x with
  | ok a => exact ok a
  | error e => exact fun h => by cases h

theorem answering_answers {α : Type} {err : LedgerError} (herr : err ≠ .duplicate)
    (x : Except LedgerError α) : NeverDuplicate (answering err x) := by
  cases x with
  | ok a => exact ok a
  | error e => exact herr

theorem consumeNonce_answers (a : Account) (n : Nat) : NeverDuplicate (consumeNonce a n) := by
  unfold consumeNonce
  exact rejectIf (by simp) (pure _)

theorem debt_answers (l : Loan) : NeverDuplicate (debt l) := checkedAdd_answers _ _

theorem accrue_answers (l : Loan) (now : Int) : NeverDuplicate (accrue l now) := by
  unfold accrue accrualRate
  refine ite (pure _) ?_
  refine bind (ite (checkedAdd_answers _ _) (ok _)) fun _ => ?_
  refine bind (mulDivBy_answers _ _ _) fun _ => ?_
  exact bind (checkedAdd_answers _ _) fun _ => pure _

theorem updateRisk_answers (l : Loan) (price : UInt64) (now : Int) :
    NeverDuplicate (updateRisk l price now) := by
  unfold updateRisk
  refine bind (mulDivBy_answers _ _ _) fun _ => bind (debt_answers l) fun _ => ite (pure _) ?_
  refine bind (mulDivBy_answers _ _ _) fun _ => ite (pure _) ?_
  refine bind (mulDivBy_answers _ _ _) fun _ => ?_
  exact bind (mulDivBy_answers _ _ _) fun _ => pure _

theorem payTranche_answers (l : Loan) (interest : UInt64) (d : Distribution) (t : Tranche) :
    NeverDuplicate (payTranche l interest d t) := by
  have hreturn : ∀ m lb p, NeverDuplicate (returnPrincipal m lb p) := by
    intro m lb p
    unfold returnPrincipal
    refine ite (bind (withContext_answers _ _) fun _ => pure _) ?_
    exact bind (withContext_answers _ _) fun _ => bind (checkedAdd_answers _ _) fun _ => pure _
  have hinterest : NeverDuplicate (trancheInterest l interest t) :=
    bind (mulDivBy_answers _ _ _) fun _ => mulDivBy_answers _ _ _
  unfold payTranche
  refine bind hinterest fun _ => orElse (by decide) fun _ => ?_
  refine bind (withContext_answers _ _) fun _ => bind (hreturn _ _ _) fun _ => ?_
  refine bind (checkedAdd_answers _ _) fun _ => bind (checkedAdd_answers _ _) fun _ => ?_
  exact bind (checkedAdd_answers _ _) fun _ => bind (checkedAdd_answers _ _) fun _ => pure _

theorem distributeRepayment_answers (s : State) (l : Loan) (interest : UInt64) :
    NeverDuplicate (distributeRepayment s l interest) := by
  unfold distributeRepayment
  refine bind (foldlM (payTranche_answers l interest) _ _) fun _ => ?_
  refine rejectIf (by decide) (bind (answering_answers (by decide) _) fun _ => ?_)
  exact bind (checkedAdd_answers _ _) fun _ => pure _

theorem liquidateInState_answers (A : Arith) (s : State) (id : String) (l : Loan) :
    NeverDuplicate (liquidateInState A s id l) := by
  unfold liquidateInState
  refine bind (debt_answers l) fun _ => rejectIf (by decide) ?_
  refine bind (mulDivBy_answers _ _ _) fun _ => bind (sub_answers _ _ _) fun _ => ?_
  refine bind (add_answers _ _ _) fun _ => bind (sub_answers _ _ _) fun _ => ?_
  refine bind (sub_answers _ _ _) fun _ => bind (add_answers _ _ _) fun _ => ?_
  refine bind (checkedSub_answers _ _) fun _ => ?_
  refine bind (distributeRepayment_answers _ _ _) fun _ => ?_
  exact bind (sub_answers _ _ _) fun _ => pure _

theorem tickLoan_answers (A : Arith) (ctx : Context) (price : Price) (s : State) (id : String) :
    NeverDuplicate (tickLoan A ctx price s id) := by
  unfold tickLoan
  cases s.loans[id]? with
  | none => exact ok s
  | some l =>
      refine ite ?_ (ok s)
      refine bind (accrue_answers _ _) fun _ => bind (updateRisk_answers _ _ _) fun _ => ?_
      exact bind (debt_answers _) fun _ => ite (liquidateInState_answers _ _ _ _) (pure _)

theorem allocateTranche_answers (A : Arith) (s : State) (t : Tranche) :
    NeverDuplicate (allocateTranche A s t) := by
  unfold allocateTranche
  refine orElse (by decide) fun _ => rejectIf (by decide) ?_
  exact bind (sub_answers _ _ _) fun _ => bind (add_answers _ _ _) fun _ => pure _

theorem observePrice_answers (observed : Option Price) (now : Int) (s : State) :
    NeverDuplicate (observePrice observed now s) := by
  cases observed with
  | none => exact ok s
  | some price => exact rejectIf (by decide) (pure _)

theorem drawMandate_answers (A : Arith) (d : Drawing) (id : String) :
    NeverDuplicate (drawMandate A d id) := by
  unfold drawMandate
  cases d.mandates[id]? with
  | none => exact ok d
  | some m =>
      refine ite (ok d) (bind (sub_answers _ _ _) fun _ => ?_)
      exact bind (sub_answers _ _ _) fun _ => bind (sub_answers _ _ _) fun _ => pure _

theorem drawBalance_answers (A : Arith) (range : RangeOrder) (s : State) (a : Account)
    (asset : Asset) (amount : UInt64) : NeverDuplicate (drawBalance A range s a asset amount) := by
  unfold drawBalance
  refine ite (bind (sub_answers _ _ _) fun _ => pure _) (bind (sub_answers _ _ _) fun _ => ?_)
  refine rejectIf (by decide) (bind (foldlM (drawMandate_answers A) _ _) fun _ => ?_)
  exact rejectIf (by decide) (pure _)

/-- An operation that answers `ErrDuplicate` found its identifier taken. -/
theorem body_duplicate (A : Arith) (host : Host) (ctx : Context) (op : Operation) (s : State) :
    Post (op.body A host ctx s) (fun _ => True) fun e => e = .duplicate → op.Taken s := by
  have hlater : ∀ {id : String} {x : Except LedgerError State}, NeverDuplicate x →
      Post (Outcome.rejectIf (id ∈ s.processed) .duplicate >>= fun _ => x) (fun _ => True)
        fun e => e = .duplicate → id ∈ s.processed := by
    intro id x hx
    refine Post.rejectIf (fun htaken _ => htaken) fun _ => ?_
    exact hx.vacuous
  cases op with
  | openAccount owner id n =>
      exact hlater (bind (consumeNonce_answers _ _) fun _ => pure _)
  | deposit owner asset amount id =>
      refine Post.orElse (fun _ h => by cases h) fun asset' _ => ?_
      exact hlater (rejectIf (by decide) (pure _))
  | setMandate owner id amount minAPR termMask cap n =>
      refine Post.rejectIf (fun htaken _ => ?_) fun _ => ?_
      · exact ExtTreeMap.mem_iff_isSome_getElem?.mpr htaken
      · refine vacuous ?_
        refine bind (consumeNonce_answers _ _) fun _ => rejectIf (by decide) ?_
        exact bind (sub_answers _ _ _) fun _ => bind (add_answers _ _ _) fun _ => pure _
  | cancelMandate owner id n =>
      refine vacuous ?_
      refine orElse (by decide) fun _ => rejectIf (by decide) ?_
      refine bind (consumeNonce_answers _ _) fun _ => bind (sub_answers _ _ _) fun _ => ?_
      exact bind (add_answers _ _ _) fun _ => pure _
  | acceptQuote q loanID n observed =>
      refine hlater (bind (observePrice_answers _ _ _) fun _ => ?_)
      refine bind ?_ fun _ => bind (consumeNonce_answers _ _) fun _ => rejectIf (by decide) ?_
      · refine bind (answering_answers (by decide) _) fun _ => of_error fun e he => ?_
        unfold Outcome.rejectIf at he
        split at he
        · cases he; decide
        · cases he
      · refine rejectIf (by decide) (bind (sub_answers _ _ _) fun _ => ?_)
        refine bind (add_answers _ _ _) fun _ => ?_
        refine bind (foldlM (allocateTranche_answers A) _ _) fun _ => ?_
        refine bind (updateRisk_answers _ _ _) fun _ => ?_
        exact bind (checkedAdd_answers _ _) fun _ => pure _
  | riskTick price id =>
      exact hlater (bind (foldlM (tickLoan_answers A ctx price) _ _) fun _ => pure _)
  | repay owner amount id n =>
      refine hlater (bind (consumeNonce_answers _ _) fun _ => orElse (by decide) fun _ => ?_)
      refine bind (accrue_answers _ _) fun _ => bind (debt_answers _) fun _ => ?_
      refine rejectIf (by decide) (rejectIf (by decide) (bind (sub_answers _ _ _) fun _ => ?_))
      refine bind (checkedSub_answers _ _) fun _ => ?_
      refine bind (distributeRepayment_answers _ _ _) fun _ => bind (sub_answers _ _ _) fun _ => ?_
      exact bind (add_answers _ _ _) fun _ => bind (sub_answers _ _ _) fun _ => pure _
  | liquidate loanID id =>
      refine hlater (orElse (by decide) fun _ => rejectIf (by decide) ?_)
      exact bind (liquidateInState_answers _ _ _ _) fun _ => pure _
  | seedBackstop amount id => exact hlater (rejectIf (by decide) (pure _))
  | withdraw owner asset amount id n =>
      refine Post.orElse (fun _ h => by cases h) fun asset' _ => ?_
      refine hlater (bind (consumeNonce_answers _ _) fun _ => ?_)
      exact bind (drawBalance_answers _ _ _ _ _ _) fun _ => pure _
  | withdrawFromMandate owner mandateID amount id n =>
      refine hlater (orElse (by decide) fun _ => rejectIf (by decide) ?_)
      refine bind (consumeNonce_answers _ _) fun _ => rejectIf (by decide) ?_
      exact bind (sub_answers _ _ _) fun _ => bind (sub_answers _ _ _) fun _ => pure _

theorem validate_answers (ctx : Context) (op : Operation) : NeverDuplicate (op.validate ctx) := by
  have hreject : ∀ {bad : Prop} [Decidable bad] {err : LedgerError}, err ≠ .duplicate →
      NeverDuplicate (Outcome.rejectIf bad err) := by
    intro bad _ err herr
    unfold Outcome.rejectIf
    exact ite herr (ok ())
  cases op with
  | deposit | setMandate | riskTick | seedBackstop | withdraw | withdrawFromMandate =>
      exact hreject (by decide)
  | _ => exact ok ()

/-- An operation whose identifier is taken looks at nothing else. -/
theorem body_taken {A : Arith} {host : Host} {ctx : Context} {op : Operation} {s : State}
    (hvalid : op.validate ctx = .ok ()) (h : op.Taken s) :
    op.body A host ctx s = .error .duplicate := by
  have hasset : ∀ {name : String} {amount : UInt64} {err : LedgerError},
      Outcome.rejectIf (amount = 0 ∨ Asset.ofName name = none) err = .ok () →
        ∃ asset, Asset.ofName name = some asset := by
    intro name amount err hok
    rw [rejectIf_eq_ok, not_or] at hok
    exact Option.ne_none_iff_exists'.mp hok.2
  cases op with
  | deposit owner asset amount id =>
      obtain ⟨asset', hname⟩ := hasset hvalid
      simp only [Operation.body, hname, Outcome.orElse, ok_bind]
      unfold QuietLine.deposit
      rw [rejectIf_of (show id ∈ s.processed from h), error_bind]
  | withdraw owner asset amount id n =>
      obtain ⟨asset', hname⟩ := hasset hvalid
      simp only [Operation.body, hname, Outcome.orElse, ok_bind]
      unfold QuietLine.withdraw
      rw [rejectIf_of (show id ∈ s.processed from h), error_bind]
  | setMandate owner id amount minAPR termMask cap n =>
      have hsome : s.mandates[id]?.isSome = true := ExtTreeMap.mem_iff_isSome_getElem?.mp h
      simp only [Operation.body, QuietLine.setMandate]
      rw [rejectIf_of hsome, error_bind]
  | cancelMandate owner mandateID n => exact absurd h id
  | openAccount owner id n =>
      simp only [Operation.body, QuietLine.openAccount]
      rw [rejectIf_of (show id ∈ s.processed from h), error_bind]
  | acceptQuote q loanID n observed =>
      simp only [Operation.body, QuietLine.acceptQuote]
      rw [rejectIf_of (show q.requestID ∈ s.processed from h), error_bind]
  | riskTick price id =>
      simp only [Operation.body, QuietLine.riskTick]
      rw [rejectIf_of (show id ∈ s.processed from h), error_bind]
  | repay owner amount id n =>
      simp only [Operation.body, QuietLine.repay]
      rw [rejectIf_of (show id ∈ s.processed from h), error_bind]
  | liquidate loanID id =>
      simp only [Operation.body, QuietLine.liquidate]
      rw [rejectIf_of (show id ∈ s.processed from h), error_bind]
  | seedBackstop amount id =>
      simp only [Operation.body, QuietLine.seedBackstop]
      rw [rejectIf_of (show id ∈ s.processed from h), error_bind]
  | withdrawFromMandate owner mandateID amount id n =>
      simp only [Operation.body, QuietLine.withdrawFromMandate]
      rw [rejectIf_of (show id ∈ s.processed from h), error_bind]

end Answers

/-! ### Who files mandates -/

theorem tickLoan_mandates {A : Arith} {ctx : Context} {price : Price} {s s' : State} {id : String}
    (h : tickLoan A ctx price s id = .ok s') :
    Pointwise (fun _ m m' => m.SameOffer m') s.mandates s'.mandates := by
  rcases tickLoan_ok h with rfl | ⟨l, l₁, hl, _, _, hopen, rfl | ⟨_, hliq⟩⟩
  · exact (Quiet.refl _).mandates
  · exact (Quiet.refl _).mandates
  · have hget : (s.putLoan id l₁).loans[id]? = some l₁ := by rw [putLoan_get, if_pos rfl]
    exact (liquidateInState_closing hget hopen hliq).mandates

/-- Only `SetMandate` files a mandate, and no operation removes one. -/
theorem body_mandates {A : Arith} {host : Host} {ctx : Context} {op : Operation} {s s' : State}
    (h : op.body A host ctx s = .ok s') (hkind : op.kind ≠ .setMandate) :
    Pointwise (fun _ m m' => m.SameOffer m') s.mandates s'.mandates := by
  cases op with
  | openAccount owner id n => exact (openAccount_quiet h).mandates
  | deposit owner asset amount id =>
      obtain ⟨asset', _, h⟩ := bind_eq_ok.mp h
      exact (deposit_quiet h).mandates
  | setMandate owner id amount minAPR termMask cap n => exact absurd rfl hkind
  | cancelMandate owner id n => exact (cancelMandate_quiet h).mandates
  | acceptQuote q loanID n observed =>
      obtain ⟨l, ho⟩ := acceptQuote_opening h
      exact ho.mandates
  | riskTick price id =>
      obtain ⟨_, s₁, hloop, rfl⟩ := riskTick_ok h
      have htick : Pointwise (fun _ m m' => m.SameOffer m')
          ({ s with price } : State).mandates s₁.mandates := by
        refine foldlM_ok (R := fun _ (s s' : State) => Pointwise (fun _ m m' => m.SameOffer m')
          s.mandates s'.mandates) (fun s => (Quiet.refl s).mandates) ?_ hloop
        intro id rest s s₁ s₂ hfirst hrest
        exact (tickLoan_mandates hfirst).comp hrest fun _ _ _ _ h h' => h.trans h'
      exact htick
  | repay owner amount id n =>
      obtain ⟨l, hc⟩ := repay_closing h
      exact hc.mandates
  | liquidate loanID id =>
      obtain ⟨_, l, s₁, hl, hstatus, hliq, rfl⟩ := liquidate_ok h
      have hopen : l.isOpen = true := by simp [Loan.isOpen, hstatus]
      exact (liquidateInState_closing hl hopen hliq).mandates
  | seedBackstop amount id => exact (seedBackstop_quiet h).mandates
  | withdraw owner asset amount id n =>
      obtain ⟨asset', _, h⟩ := bind_eq_ok.mp h
      exact (withdraw_quiet h).mandates
  | withdrawFromMandate owner mandateID amount id n => exact (withdrawFromMandate_quiet h).mandates

/-! ### What a run has recorded -/

section Runs

variable {A : Arith} {host : Host}

theorem step_processed (id : String) (s : State) (e : Event) (s' : State)
    (h : step A host s e = .ok s') : id ∈ s'.processed ↔ id ∈ s.processed ∨ e.records id := by
  cases e with
  | operate ctx stored op =>
      obtain ⟨_, _, next, hbody, rfl⟩ := Operation.apply_ok h
      show id ∈ next.processed ↔ id ∈ s.processed ∨ (op.kind.recorded = true ∧ op.operationID = id)
      cases hrec : op.kind.recorded with
      | true =>
          rw [(body_processed hbody hrec).2 id]
          constructor
          · rintro (rfl | hid)
            · exact Or.inr ⟨rfl, rfl⟩
            · exact Or.inl hid
          · rintro (hid | ⟨_, rfl⟩)
            · exact Or.inr hid
            · exact Or.inl rfl
      | false =>
          rw [body_unprocessed hbody hrec]
          simp
  | confirm sequence root stored =>
      obtain rfl := confirmAnchor_ok h
      simp [Event.records]

/-- **`Processed` holds the identifiers that commits recorded**, whatever their kind. -/
theorem mem_processed_ledgerAfter (events : List Event) (id : String) :
    id ∈ (ledgerAfter A host events).processed ↔
      ∃ c ∈ Machine.commits (step A host) newState events, c.2.records id := by
  have htracked : id ∈ (ledgerAfter A host events).processed ↔ id ∈ newState.processed ∨ _ :=
    Machine.tracked (P := fun s : State => id ∈ s.processed) (M := Event.records id)
      (step_processed id) newState events
  rw [htracked]
  simp [newState]

theorem mem_of_pointwise {P : String → Mandate → Mandate → Prop}
    {ms ms' : ExtTreeMap String Mandate} (h : Pointwise P ms ms') (id : String) :
    id ∈ ms' ↔ id ∈ ms := by
  rw [ExtTreeMap.mem_iff_isSome_getElem?, ExtTreeMap.mem_iff_isSome_getElem?]
  cases hm : ms[id]? with
  | none => rw [h.get_none hm]
  | some m =>
      obtain ⟨m', hm', _⟩ := h.get hm
      rw [hm']
      simp

theorem step_mandates (id : String) (s : State) (e : Event) (s' : State)
    (h : step A host s e = .ok s') : id ∈ s'.mandates ↔ id ∈ s.mandates ∨ e.files id := by
  cases e with
  | operate ctx stored op =>
      obtain ⟨_, _, next, hbody, rfl⟩ := Operation.apply_ok h
      show id ∈ next.mandates ↔ id ∈ s.mandates ∨ (op.kind = .setMandate ∧ op.operationID = id)
      by_cases hkind : op.kind = .setMandate
      · cases op with
        | setMandate owner mandateID amount minAPR termMask cap n =>
            obtain ⟨m, ho⟩ := setMandate_offering hbody
            rw [ho.mandates, ExtTreeMap.mem_insert, Std.compare_eq_iff_eq]
            show mandateID = id ∨ id ∈ s.mandates ↔ id ∈ s.mandates ∨ (_ ∧ mandateID = id)
            simp [Operation.kind, or_comm]
        | _ => cases hkind
      · rw [mem_of_pointwise (body_mandates hbody hkind)]
        simp [hkind]
  | confirm sequence root stored =>
      obtain rfl := confirmAnchor_ok h
      simp [Event.files]

/-- **The mandates of a run are those its commits filed.** -/
theorem mem_mandates_ledgerAfter (events : List Event) (id : String) :
    id ∈ (ledgerAfter A host events).mandates ↔
      ∃ c ∈ Machine.commits (step A host) newState events, c.2.files id := by
  have htracked : id ∈ (ledgerAfter A host events).mandates ↔ id ∈ newState.mandates ∨ _ :=
    Machine.tracked (P := fun s : State => id ∈ s.mandates) (M := Event.files id)
      (step_mandates id) newState events
  rw [htracked]
  simp [newState]

/-! ### Exactly when a call is refused -/

/-- **`ErrDuplicate` means that the identifier is taken**, in the namespace the operation uses, and
a call that gets as far as looking is then answered so. -/
theorem apply_duplicate_iff (host : Host) (ctx : Context) (stored : Bool) (op : Operation)
    (s : State) :
    op.apply A host ctx stored s = .error .duplicate ↔
      s.pendingAnchor = none ∧ op.validate ctx = .ok () ∧ op.Taken s := by
  have hpost : Post (op.apply A host ctx stored s) (fun _ => True) fun e => e = .duplicate →
      s.pendingAnchor = none ∧ op.validate ctx = .ok () ∧ op.Taken s := by
    unfold Operation.apply mutate
    cases hvalid : op.validate ctx with
    | error e =>
        rw [error_bind]
        exact Post.error fun h => absurd h ((validate_answers ctx op).ne hvalid)
    | ok u =>
        rw [ok_bind]
        refine Post.rejectIf (fun _ h => by cases h) fun hpending => ?_
        have hnone : s.pendingAnchor = none := by
          cases hp : s.pendingAnchor with
          | none => rfl
          | some p => rw [hp] at hpending; exact absurd rfl hpending
        cases hbody : op.body A host ctx s with
        | error e =>
            rw [error_bind]
            exact Post.error fun h => ⟨hnone, rfl, (body_duplicate A host ctx op s).of_error hbody h⟩
        | ok next =>
            rw [ok_bind]
            exact Post.rejectIf (fun _ h => by cases h) fun _ => Post.pure trivial
  constructor
  · intro h
    exact hpost.of_error h rfl
  · rintro ⟨hnone, hvalid, htaken⟩
    unfold Operation.apply mutate
    rw [hvalid, ok_bind, rejectIf_of_not (by rw [hnone]; decide), ok_bind, body_taken hvalid htaken,
      error_bind]

/-- The run has committed an operation of this kind with this identifier. -/
def CommittedAs (host : Host) (events : List Event) (kind : OpKind) (id : String) : Prop :=
  ∃ c ∈ Machine.commits (step .wrapping host) newState events, ∃ ctx stored op,
    c.2 = .operate ctx stored op ∧ op.kind = kind ∧ op.operationID = id

end Runs

end QuietLine
