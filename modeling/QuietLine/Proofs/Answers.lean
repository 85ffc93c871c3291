/-
Who is told what.

A private answer leaves the extension encrypted to a key that its addressee signed, and
it is about nobody else: the account it shows is the addressee's as the ledger had it at
a moment while the handler ran, all of it and nothing but it.  That a loan shown is the
addressee's own rests on loan ids being fresh, since an account finds its loan by an id
that the borrower chose.
-/
import QuietLine.Proofs.Statement
import QuietLine.Proofs.Pointers
import QuietLine.Proofs.Traces

namespace QuietLine

open Process Process.Fallible

/-! ### What a handler answers -/

/-- The account as `accountView` finds it in the state. -/
structure State.Shows (s : State) (key : String) (view : AccountView) : Prop where
  account : s.accounts[key]? = some view.account
  loan : view.loan = if view.account.loanID ≠ "" then s.loans[view.account.loanID]? else none
  mandates : ∃ range, view.mandates = s.lenderMandates range key
  activities : view.activities = s.activities.filter fun item => item.account = key
  price : view.price = s.price

/-- The private answer to `req`, as the trace accounts for it. -/
inductive Viewed (P : Platform) (req : SignedAction) (t : Trace) : PrivateView → Prop
  | none : Viewed P req t .none
  | quote {p : QuoteRequest} {price : Price} {q : Quote}
      (parsed : P.quotePayload req.payload = some p)
      (told : (⟨.quoteAtPrice { p with borrower := req.sender.hex P.keccak256 } price, .ok q⟩ :
        Exchange) ∈ t) : Viewed P req t (.quote q)
  | account {s : State} {view : AccountView}
      (told : (⟨.state .view, s⟩ : Exchange) ∈ t)
      (shown : s.Shows (lower P.keccak256 req.sender) view) : Viewed P req t (.account view)
  | stress {p : StressQueryPayload} {s : State} {view : AccountView} {loan : Loan} {now : Int}
      {figures : StressView} (parsed : P.stressQueryPayload req.payload = some p)
      (told : (⟨.state .view, s⟩ : Exchange) ∈ t)
      (shown : s.Shows (lower P.keccak256 req.sender) view) (has : view.loan = some loan)
      (computed : stressFigures loan p.xrpUSDE6 now = .ok figures) :
      Viewed P req t (.stress figures)

theorem Viewed.cons {P : Platform} {req : SignedAction} {t : Trace} {view : PrivateView}
    (x : Exchange) (h : Viewed P req t view) : Viewed P req (x :: t) view := by
  cases h with
  | none => exact .none
  | quote parsed told => exact .quote parsed (List.mem_cons_of_mem x told)
  | account told shown => exact .account (List.mem_cons_of_mem x told) shown
  | stress parsed told shown has computed =>
      exact .stress parsed (List.mem_cons_of_mem x told) shown has computed

/-- A private answer is for the signer of the action and encrypted to the key it names. -/
def Disclosed (P : Platform) (cfg : Config) (action : Action) (t : Trace) (reply : Reply) : Prop :=
  ∀ anchor ciphertext, reply = .secure anchor ciphertext → ∃ req view,
    Authorised P cfg action req ∧ Viewed P req t view ∧
      P.encrypt (P.marshalView view) req.responsePublicKey = some ciphertext

section Handlers

variable {P : Platform} {cfg : Config} {action : Action} {t : Trace} {req : SignedAction}

/-- Nothing private is in an answer of another kind. -/
theorem disclosed_of_ne {reply : Reply} (h : ∀ anchor ciphertext, reply ≠ .secure anchor ciphertext) :
    Disclosed P cfg action t reply :=
  fun anchor ciphertext heq => absurd heq (h anchor ciphertext)

theorem accountView_ends (sender : Address) :
    Ends t (accountView P sender) fun t' r => ∀ view, r = .ok view →
      ∃ s, (⟨.state .view, s⟩ : Exchange) ∈ t' ∧ s.Shows (lower P.keccak256 sender) view := by
  refine Ends.ask fun s => Ends.ask fun range => ?_
  refine Fallible.Obeys.pure ?_
  intro view hview
  cases haccount : s.accounts[lower P.keccak256 sender]? with
  | none => simp only [haccount] at hview; cases hview
  | some account =>
      simp only [haccount] at hview
      cases hview
      exact ⟨s, by simp, haccount, rfl, ⟨range, rfl⟩, rfl, rfl⟩

theorem performAction_ends : Ends t (performAction P cfg action req) fun t' performed =>
    Viewed P req t' performed.1 := by
  have hmutates : ∀ {α : Type} (x : Handler α) (anchor : α → Option Settlement) (t : Trace),
      Ends t (x >>= fun a => (pure (.none, anchor a) : Handler Performed))
        fun t' performed => Viewed P req t' performed.1 :=
    fun x anchor t => Ends.after x fun _ _ => Fallible.Obeys.pure .none
  unfold performAction
  refine Ends.ite (fun _ => Ends.orElse fun p _ => hmutates _ _ _) fun _ => ?_
  refine Ends.ite (fun _ => Ends.orElse fun p _ => hmutates _ _ _) fun _ => ?_
  refine Ends.ite (fun _ => Ends.orElse fun p _ => hmutates _ _ _) fun _ => ?_
  refine Ends.ite (fun _ => Ends.orElse fun p _ => ?_) fun _ => ?_
  · exact Ends.after _ fun _ _ => Ends.after _ fun _ _ => hmutates _ _ _
  refine Ends.ite (fun _ => Ends.orElse fun p hp => ?_) fun _ => ?_
  · refine Ends.ask fun price => Ends.orElse fun price _ => Ends.ask fun quoted => ?_
    refine Ends.attempt fun q hq => Fallible.Obeys.pure ?_
    cases quoted with
    | error cause => cases hq
    | ok q' => cases hq; exact .quote hp List.mem_cons_self
  refine Ends.ite (fun _ => Ends.orElse fun p _ => hmutates _ _ _) fun _ => ?_
  refine Ends.ite (fun _ => ?_) fun _ => ?_
  · refine Fallible.Obeys.bind (accountView_ends req.sender) fun t view hview => ?_
    refine Ends.attempt fun v hv => ?_
    obtain ⟨s, htold, hshows⟩ := hview v hv
    exact Fallible.Obeys.pure (.account htold hshows)
  refine Ends.ite (fun _ => Ends.orElse fun p hp => ?_) fun _ => trivial
  have hstress : Ends t (stressView P req.sender p.xrpUSDE6) fun t' figures =>
      Viewed P req t' (.stress figures) := by
    refine Fallible.Obeys.bind (accountView_ends req.sender) fun t view hview => ?_
    refine Ends.orElse fun loan hloan => Ends.ask fun now => ?_
    cases hfigures : stressFigures loan p.xrpUSDE6 now with
    | error e => exact trivial
    | ok figures =>
        obtain ⟨v, hv, hhas⟩ := Option.bind_eq_some_iff.mp hloan
        cases view with
        | error e => cases hv
        | ok v' =>
            cases hv
            obtain ⟨s, htold, hshows⟩ := hview v rfl
            exact .stress hp (List.mem_cons_of_mem _ htold) hshows hhas hfigures
  exact Fallible.Obeys.bind hstress fun t figures hviewed => Fallible.Obeys.pure hviewed

theorem handleSignedDirect_ends (hauth : Authorised P cfg action req) :
    Ends t (handleSignedDirect P cfg action req) (Disclosed P cfg action) := by
  refine Fallible.Obeys.bind performAction_ends ?_
  rintro t ⟨view, anchor⟩ hviewed
  refine Ends.bind_any (K := fun t => Viewed P req t view) (fun x t h => h.cons x) hviewed _ ?_
  intro t anchor hviewed
  refine Ends.orElse fun ciphertext hciphertext => Fallible.Obeys.pure ?_
  intro anchor' ciphertext' heq
  cases heq
  exact ⟨req, view, hauth, hviewed, hciphertext⟩

/-- An answer that is not private comes last. -/
theorem ends_public {α : Type} (x : Handler α) {reply : α → Reply}
    (h : ∀ a anchor ciphertext, reply a ≠ .secure anchor ciphertext) (t : Trace) :
    Ends t (x >>= fun a => pure (reply a)) (Disclosed P cfg action) :=
  Ends.after x fun _ a => Fallible.Obeys.pure (disclosed_of_ne (h a))

theorem processInstruction_ends :
    Ends t (processInstruction P cfg action) (Disclosed P cfg action) := by
  refine Ends.orElse fun df _ => Ends.rejectIf ?_
  refine Ends.ite (fun _ => ?_) fun _ => ?_
  · refine Ends.attempt fun _ _ => Ends.attempt fun _ _ => Ends.after _ fun t _ => ?_
    exact ends_public _ (by intro _ _ _; nofun) t
  refine Ends.ite (fun _ => ?_) fun _ => ?_
  · refine Ends.attempt fun _ _ => Ends.orElse fun _ _ => Ends.orElse fun req _ => ?_
    refine Ends.rejectIf (Ends.after _ fun t _ => Ends.orElse fun payload _ => ?_)
    exact Ends.after _ fun t _ => ends_public _ (by intro _ _ _; nofun) t
  refine Ends.ite (fun _ => ?_) fun _ => ?_
  · refine Ends.attempt fun _ _ => Ends.attempt fun _ _ => Ends.after _ fun t _ => ?_
    refine Ends.ask fun s => Ends.orElse fun account _ => Ends.after _ fun t _ => ?_
    exact ends_public _ (by intro _ _ _; nofun) t
  refine Ends.ite (fun _ => ?_) fun _ => ?_
  · refine Ends.attempt fun _ _ => Ends.after _ fun t _ => ?_
    exact ends_public _ (by intro _ _ _; nofun) t
  refine Ends.ite (fun _ => ?_) fun _ => trivial
  refine Ends.attempt fun _ _ => Ends.after _ fun t _ => ?_
  exact ends_public _ (by intro _ _ _; nofun) t

theorem handleAnchorConfirmation_ends {message : List UInt8} :
    Ends t (handleAnchorConfirmation P message) (Disclosed P cfg action) := by
  refine Ends.orElse fun payload _ => Ends.after _ fun t read => ?_
  refine Ends.attempt fun _ _ => Ends.ask fun answer => Ends.attempt fun _ _ => ?_
  exact Fallible.Obeys.pure (disclosed_of_ne (by intro _ _; nofun))

theorem handleAnchorRecovery_ends :
    Ends t (handleAnchorRecovery P action) (Disclosed P cfg action) := by
  refine Ends.ask fun s => Ends.orElse fun pending _ => Ends.rejectIf ?_
  exact ends_public _ (by intro _ _ _; nofun) _

theorem handleDepositRecovery_ends {message : List UInt8} :
    Ends t (handleDepositRecovery P cfg action message) (Disclosed P cfg action) := by
  refine Ends.orElse fun payload _ => Ends.after _ fun t _ => Ends.attempt fun asset _ => ?_
  refine Ends.ask fun answer => ?_
  cases answer with
  | ok u => exact ends_public _ (by intro _ _ _; nofun) _
  | error cause =>
      refine Ends.ite (fun _ => ?_) fun _ => trivial
      exact Fallible.Obeys.pure (disclosed_of_ne (by intro _ _; nofun))

/-- **A handler discloses nothing but to the signer of its action.** -/
theorem processAction_ends (P : Platform) (cfg : Config) (action : Action) :
    Ends [] (processAction P cfg action) (Disclosed P cfg action) := by
  unfold processAction
  cases htype : action.actionType with
  | instruction => exact processInstruction_ends
  | direct =>
      refine Ends.orElse fun di hdi => Ends.rejectIf ?_
      refine Ends.ite (fun _ => handleAnchorConfirmation_ends) fun _ => ?_
      refine Ends.ite (fun _ => handleAnchorRecovery_ends) fun _ => ?_
      refine Ends.ite (fun _ => handleDepositRecovery_ends) fun _ => ?_
      refine Ends.orElse fun plain hplain => Ends.orElse fun req hreq => ?_
      have hverified : Ends [] (verifySignedAction P cfg req (hashString di.opCommand))
          fun _ _ => signer P cfg req = some req.sender :=
        KeepsTo.ends (@verifySignedAction_proper P cfg action _ _ _ Untouched.nil)
          fun _ _ h => h.2.1
      refine Fallible.Obeys.bind hverified fun t _ hsigned => ?_
      have hcarried : action.signed P = some req := by
        simp [Action.signed, Action.ciphertext, htype, hdi, hplain, hreq]
      exact handleSignedDirect_ends ⟨hcarried, hsigned⟩
  | other => exact trivial

end Handlers

/-! ### What is shown of the ledger -/

/-- The view has all that the ledger has of the account, and nothing else. -/
structure AccountView.Exact (S : Setup) (w : World) (key : String) (view : AccountView) : Prop where
  account : w.ledger.accounts[key]? = some view.account
  owner : view.account.owner = key
  loan : ∀ l, view.loan = some l ↔
    l.borrower = key ∧ l.isOpen = true ∧ ∃ id : String, w.ledger.loans[id]? = some l
  mandates : ∀ m, m ∈ view.mandates ↔
    m.lender = key ∧ ∃ id : String, w.ledger.mandates[id]? = some m
  nodup : (view.mandates.map Mandate.id).Nodup
  statement : view.activities = ((w.commits S).filterMap fun c => c.2.event.activity).filter
    fun item => item.account = key
  price : view.price = w.ledger.price

/-- What a private answer to `req` may be, where the ledger is as in `w`. -/
inductive PrivateView.Of (S : Setup) (req : SignedAction) (w : World) : PrivateView → Prop
  | none : PrivateView.Of S req w .none
  | quote {p : QuoteRequest} {price : Price} {range : RangeOrder} {now : Int} {q : Quote}
      (parsed : S.platform.quotePayload req.payload = some p)
      (quoted : quoteAtPrice S.host range w.ledger
        { p with borrower := req.sender.hex S.platform.keccak256 } price now = .ok q) :
      PrivateView.Of S req w (.quote q)
  | account {view : AccountView} (exact : view.Exact S w (lower S.platform.keccak256 req.sender)) :
      PrivateView.Of S req w (.account view)
  | stress {p : StressQueryPayload} {id : String} {loan : Loan} {now : Int} {figures : StressView}
      (parsed : S.platform.stressQueryPayload req.payload = some p)
      (filed : w.ledger.loans[id]? = some loan)
      (own : loan.borrower = lower S.platform.keccak256 req.sender) (isOpen : loan.isOpen = true)
      (computed : stressFigures loan p.xrpUSDE6 now = .ok figures) :
      PrivateView.Of S req w (.stress figures)

section Exact

variable {S : Setup} {w : World} {key : String} {view : AccountView}

/-- An open loan is shown to its borrower, and nobody else's is. -/
theorem State.Shows.loan_iff {s : State} (h : s.Shows key view) (hs : Pointed s) (l : Loan) :
    view.loan = some l ↔
      l.borrower = key ∧ l.isOpen = true ∧ ∃ id : String, s.loans[id]? = some l := by
  have hat : s.accountAt key = view.account := accountAt_of_some h.account
  rw [h.loan]
  constructor
  · intro hl
    by_cases hid : view.account.loanID ≠ ""
    · rw [if_pos hid] at hl
      rw [← hat] at hid hl
      obtain ⟨l', hl', hopen, hborrower⟩ := hs.account key hid
      rw [hl] at hl'
      cases hl'
      exact ⟨hborrower, hopen, _, hl⟩
    · rw [if_neg hid] at hl
      cases hl
  · rintro ⟨rfl, hopen, id, hl⟩
    have hid := hs.loan id l hl hopen
    rw [hat] at hid
    rw [hid, if_pos (hs.named hl)]
    exact hl

theorem State.Shows.exact (h : w.ledger.Shows key view) (hs : Pointed w.ledger)
    (hw : Coherent S w) : view.Exact S w key := by
  obtain ⟨range, hrange⟩ := h.mandates
  refine ⟨h.account, ?_, h.loan_iff hs, ?_, ?_, ?_, h.price⟩
  · rw [← accountAt_of_some h.account]
    exact hs.wellformed.owner key
  · intro m
    rw [hrange, State.lenderMandates, List.mem_filter, mem_rangeMandates]
    simp [and_comm]
  · rw [hrange]
    have hids : ((w.ledger.rangeMandates range).map Mandate.id).Nodup :=
      rangeMandates_nodup fun id m hm => (hs.wellformed.mandate id m hm).1
    exact hids.sublist (List.filter_sublist.map _)
  · rw [h.activities, hw.ledgerAfter, activities_ledgerAfter, commits_events, List.filterMap_map]
    rfl

/-- What the trace accounts for is what the ledger had. -/
theorem Viewed.of_answers {req : SignedAction} {t : Trace} {view : PrivateView} {moves : List Move}
    (h : Viewed S.platform req t view) {pid : Nat}
    (hanswered : ∀ x ∈ t, Machine.Once (World.step S) (World.Tells S pid x) {} moves)
    (hpointed : ∀ before, before <+: moves → Pointed (worldAfter S before).ledger)
    (hstarted : pid < (worldAfter S moves).handlers.length) :
    ∃ before, before <+: moves ∧ pid < (worldAfter S before).handlers.length ∧
      view.Of S req (worldAfter S before) := by
  have hread : ∀ {s : State}, (⟨.state .view, s⟩ : Exchange) ∈ t → ∃ before, before <+: moves ∧
      pid < (worldAfter S before).handlers.length ∧ (worldAfter S before).ledger = s := by
    intro s hs
    obtain ⟨before, move, hbefore, started, a, _, hget, heq⟩ := hanswered _ hs
    exact ⟨before, (List.prefix_append before [move]).trans hbefore,
      (List.getElem?_eq_some_iff.mp hget).1, heq.symm⟩
  cases h with
  | none => exact ⟨moves, List.prefix_rfl, hstarted, .none⟩
  | quote parsed told =>
      obtain ⟨before, move, hbefore, started, a, _, hget, heq⟩ := hanswered _ told
      exact ⟨before, (List.prefix_append before [move]).trans hbefore,
        (List.getElem?_eq_some_iff.mp hget).1, .quote parsed heq.symm⟩
  | account told shown =>
      obtain ⟨before, hbefore, hpid, rfl⟩ := hread told
      exact ⟨before, hbefore, hpid,
        .account (shown.exact (hpointed before hbefore) (coherent_worldAfter S before))⟩
  | stress parsed told shown has computed =>
      obtain ⟨before, hbefore, hpid, rfl⟩ := hread told
      obtain ⟨hown, hopen, id, hfiled⟩ := (shown.loan_iff (hpointed before hbefore) _).mp has
      exact ⟨before, hbefore, hpid, .stress parsed hfiled hown hopen computed⟩

end Exact

/-! ### The result -/

/-- Loan ids that are fresh in a run are fresh in every shorter one. -/
theorem pointed_of_prefix {S : Setup} {moves : List Move}
    (hfresh : Machine.Meets (step .wrapping S.host) FreshLoanID newState (worldAfter S moves).events)
    {before : List Move} (h : before <+: moves) : Pointed (worldAfter S before).ledger := by
  obtain ⟨rest, hrest⟩ := (extends_worldAfter S h).calls
  rw [World.events, ← hrest, List.map_append] at hfresh
  rw [(coherent_worldAfter S before).ledgerAfter]
  exact pointed_ledgerAfter .wrapping S.host _ (Machine.meets_append.mp hfresh).1

/-- **A private answer is its addressee's own.**  In every run in which loan ids are fresh, whatever
runs beside what: a ciphertext that the extension answers is encrypted to the key named in an action
whose sender signed it, and what it says is, as the ledger had it at a moment since that action
arrived, a quote for the sender, the figures of the sender's own open loan, or exactly the sender's
account, loan, mandates and statement. -/
theorem answers_own (S : Setup) (moves : List Move)
    (hfresh : Machine.Meets (step .wrapping S.host) FreshLoanID newState
      (worldAfter S moves).events)
    {pid : Nat} {started : Started} (hget : (worldAfter S moves).handlers[pid]? = some started)
    {anchor : Option Settlement} {ciphertext : List UInt8}
    (hdone : started.process = .done (.ok (.secure anchor ciphertext))) :
    ∃ req view, Authorised S.platform S.config started.action req ∧
      S.platform.encrypt (S.platform.marshalView view) req.responsePublicKey = some ciphertext ∧
      ∃ before, before <+: moves ∧ pid < (worldAfter S before).handlers.length ∧
        view.Of S req (worldAfter S before) := by
  have htraced := traced_worldAfter S moves
  have hdisclosed := htraced.returned hget
    (processAction_ends S.platform S.config started.action) hdone
  obtain ⟨req, view, hauth, hviewed, hciphertext⟩ := hdisclosed anchor ciphertext rfl
  have hof := hviewed.of_answers (fun x hx => (htraced.answered pid started hget).once hx)
    (fun before => pointed_of_prefix hfresh) (List.getElem?_eq_some_iff.mp hget).1
  exact ⟨req, view, hauth, hciphertext, hof⟩

/-! ### A run that answers a query -/

/-- A loan of half the collateral's value, out of the mandate of account 10. -/
def mandateQuote : Quote where
  requestID := "q"
  borrower := ""
  amount := 50
  requestedAmount := 50
  termDays := 7
  collateralFXRP := 100
  requestedCollateralFXRP := 100
  isPartial := false
  lenderAPRBPS := 800
  borrowerAPRBPS := 850
  maxAPRBPS := 1000
  tranches := [{
    mandateID := "m", lender := toLower ((sampleAddress 10).hex samplePlatform.keccak256)
    principal := 50, aprBPS := 800 }]
  expiresAt := 2000
  priceE6 := 1000000

/-- The sample setup, where that is the quote accepted and an account's view tells its loan. -/
def querySetup : Setup := { sampleSetup with
  platform := { samplePlatform with
    marshalView view := match view with
      | .account view => Bytes.utf8 view.account.loanID
      | _ => []
    borrowAcceptPayload _ := some { quote := mandateQuote, loanID := "loan" } } }

/-- What account 12 pays in. -/
def collateralFunding : Funding where
  isBackstop := false
  account := sampleAddress 12
  token := sampleSetup.config.fxrp
  amount := 100
  nonce := 2

/-- It pays in, by handlers 4 and 5. -/
def collateralSettled : List Move :=
  [.transact (sampleTx 12 100) (.deposit sampleSetup.config.fxrp 100),
    .receive (sampleAction 4 .instruction "DEPOSIT"
      (depositMessage samplePlatform.keccak256 sampleSetup.config collateralFunding))] ++
    sampleAdvance 4 4 ++
    sampleSettled 5 2 (sampleSettlement 2 .deposit
      (collateralFunding.depositID samplePlatform.keccak256 sampleSetup.config).hex 4
      (Payout.checkpoint (sampleAddress 12)))

/-- It borrows, and asks for its account while the payout is not signed yet. -/
def queriedLoan : List Move :=
  mandateSettled ++ collateralSettled ++
    [.receive (sampleAction 6 .instruction "BORROW_ACCEPT"
      (borrowMessage (sampleAddress 12) (sampleSigned 12 0 "BORROW_ACCEPT" []) (1000000, 1000)))] ++
    sampleAdvance 6 3 ++
    [.receive (sampleAction 7 .direct "ACCOUNT_QUERY" (sampleSigned 12 1 "ACCOUNT_QUERY" []))] ++
    sampleAdvance 7 4

/-- The private answer of a handler that is done. -/
def privateAnswer : Running → Option (Option Settlement × List UInt8)
  | .done (.ok (.secure anchor ciphertext)) => some (anchor, ciphertext)
  | _ => none

theorem done_of_privateAnswer {process : Running} {anchor : Option Settlement}
    {ciphertext : List UInt8} (h : privateAnswer process = some (anchor, ciphertext)) :
    process = .done (.ok (.secure anchor ciphertext)) := by
  unfold privateAnswer at h
  split at h
  · cases h; rfl
  · cases h

theorem queriedLoan_run :
    (worldAfter querySetup queriedLoan).events.filterMap Event.loanID = ["loan"] ∧
      (worldAfter querySetup queriedLoan).handlers[7]?.bind (fun h => privateAnswer h.process) =
        some (none, Bytes.utf8 "loan") := by
  decide +kernel

theorem answers_own_queried : ∃ started, (worldAfter querySetup queriedLoan).handlers[7]? =
    some started ∧ ∃ req view, Authorised querySetup.platform querySetup.config started.action req ∧
      querySetup.platform.encrypt (querySetup.platform.marshalView view) req.responsePublicKey =
        some (Bytes.utf8 "loan") ∧
      ∃ before, before <+: queriedLoan ∧ 7 < (worldAfter querySetup before).handlers.length ∧
        view.Of querySetup req (worldAfter querySetup before) := by
  obtain ⟨hids, hanswer⟩ := queriedLoan_run
  have hfresh : Machine.Meets (step .wrapping querySetup.host) FreshLoanID newState
      (worldAfter querySetup queriedLoan).events :=
    freshLoanID_of_nodup .wrapping querySetup.host (by simp [hids]) (by simp [hids])
  obtain ⟨started, hget, hdone⟩ := Option.bind_eq_some_iff.mp hanswer
  exact ⟨started, hget, answers_own querySetup queriedLoan hfresh hget
    (done_of_privateAnswer hdone)⟩

end QuietLine
