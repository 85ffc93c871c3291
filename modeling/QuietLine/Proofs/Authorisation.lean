/-
Who may move what, and how often.

A signature covers a digest of everything the action says, so two actions with one
digest are one action on one chain and one vault.  What a handler executes on a
signed action is on the account of its signer and takes that account's nonce, and a
nonce is taken once: a ciphertext may be submitted any number of times and is
committed at most once.
-/
import QuietLine.Proofs.Coherence
import QuietLine.Proofs.Nonces

namespace QuietLine

open Outcome Abi

/-! ### The digest -/

section Digest

variable {keccak : Keccak} {req req' : SignedAction} {chainID chainID' : UInt64}
  {vault vault' : Address}

/-- Everything that is hashed on the way to the digest of an action. -/
def digestPreimages (keccak : Keccak) (req : SignedAction) (chainID : UInt64) (vault : Address) :
    List (List UInt8) :=
  [packDigest keccak req chainID vault, packDomain keccak chainID vault, packAction keccak req,
    Bytes.utf8 req.action, req.payload, req.responsePublicKey]

/-- The actions say the same, signatures apart. -/
structure SignedAction.SameTerms (req req' : SignedAction) : Prop where
  sender : req.sender = req'.sender
  nonce : req.nonce = req'.nonce
  deadline : req.deadline = req'.deadline
  action : req.action = req'.action
  payload : req.payload = req'.payload
  responsePublicKey : req.responsePublicKey = req'.responsePublicKey

theorem packDomain_inj
    (h : packDomain keccak chainID vault = packDomain keccak chainID' vault') :
    chainID = chainID' ∧ vault = vault' := by
  unfold packDomain at h
  have hwords := Bytes.pack_inj (Bytes.length_eq_of_pack_eq (by decide) h) h
  simp only [List.cons.injEq, true_and, and_true] at hwords
  obtain ⟨hchain, hvault⟩ := hwords
  have hlt := chainID.toNat_lt
  have hlt' := chainID'.toNat_lt
  exact ⟨UInt64.toNat_inj.mp (uintWord_inj (by omega) (by omega) hchain), addressWord_inj hvault⟩

theorem packAction_inj (h : packAction keccak req = packAction keccak req') :
    req.sender = req'.sender ∧ req.nonce = req'.nonce ∧ req.deadline = req'.deadline ∧
      keccak (Bytes.utf8 req.action) = keccak (Bytes.utf8 req'.action) ∧
        keccak req.payload = keccak req'.payload ∧
          keccak req.responsePublicKey = keccak req'.responsePublicKey := by
  unfold packAction at h
  have hwords := Bytes.pack_inj (Bytes.length_eq_of_pack_eq (by decide) h) h
  simp only [List.cons.injEq, true_and, and_true] at hwords
  obtain ⟨hsender, hnonce, hdeadline, haction, hpayload, hkey⟩ := hwords
  have hn := req.nonce.toNat_lt
  have hn' := req'.nonce.toNat_lt
  have hd := req.deadline.toNat_lt
  have hd' := req'.deadline.toNat_lt
  exact ⟨addressWord_inj hsender,
    UInt64.toNat_inj.mp (uintWord_inj (by omega) (by omega) hnonce),
    UInt64.toNat_inj.mp (uintWord_inj (by omega) (by omega) hdeadline), haction, hpayload, hkey⟩

/-- **Equal digests are digests of one action**, on one chain and for one vault. -/
theorem signedActionDigest_inj
    (hfree : CollisionFree keccak
      (digestPreimages keccak req chainID vault ++ digestPreimages keccak req' chainID' vault'))
    (h : signedActionDigest keccak req chainID vault =
      signedActionDigest keccak req' chainID' vault') :
    req.SameTerms req' ∧ chainID = chainID' ∧ vault = vault' := by
  have hdigest := hfree _ (by simp [digestPreimages]) _ (by simp [digestPreimages]) h
  have hpacked := List.append_cancel_left hdigest
  have hwords := Bytes.pack_inj (Bytes.length_eq_of_pack_eq (by decide) hpacked) hpacked
  simp only [List.cons.injEq, and_true] at hwords
  obtain ⟨hdomain, haction⟩ := hwords
  have hdomain' := hfree _ (by simp [digestPreimages]) _ (by simp [digestPreimages]) hdomain
  have haction' := hfree _ (by simp [digestPreimages]) _ (by simp [digestPreimages]) haction
  obtain ⟨hsender, hnonce, hdeadline, hname, hpayload, hkey⟩ := packAction_inj haction'
  have hname' := hfree _ (by simp [digestPreimages]) _ (by simp [digestPreimages]) hname
  have hpayload' := hfree _ (by simp [digestPreimages]) _ (by simp [digestPreimages]) hpayload
  have hkey' := hfree _ (by simp [digestPreimages]) _ (by simp [digestPreimages]) hkey
  exact ⟨⟨hsender, hnonce, hdeadline, Bytes.utf8_inj hname', hpayload', hkey'⟩,
    packDomain_inj hdomain'⟩

end Digest

/-! ### What a signed action executes -/

/-- The operations that are executed on a signed action. -/
def OpKind.isSigned : OpKind → Bool
  | .openAccount | .setMandate | .cancelMandate | .borrowAccept | .applyRepayment
  | .withdrawFromMandate => true
  | _ => false

/-- The operation is the one the action asks for, for its sender and with its nonce. -/
def SignedAction.Performs (P : Platform) (req : SignedAction) (op : Operation) : Prop :=
  match op with
  | .openAccount owner id n => req.action = "OPEN_ACCOUNT" ∧ owner = req.sender.hex P.keccak256 ∧
      n = req.nonce.toNat ∧ P.openAccountPayload req.payload = some { operationID := id }
  | .setMandate owner id amount minAPR termMask cap n => req.action = "SET_MANDATE" ∧
      owner = req.sender.hex P.keccak256 ∧ n = req.nonce.toNat ∧
      P.setMandatePayload req.payload = some {
        mandateID := id, amount, minAPRBPS := minAPR, termMask, perBorrowerCap := cap }
  | .cancelMandate owner id n => req.action = "CANCEL_MANDATE" ∧
      owner = req.sender.hex P.keccak256 ∧ n = req.nonce.toNat ∧
      P.cancelMandatePayload req.payload = some { mandateID := id }
  | .acceptQuote q loanID n _ => req.action = "BORROW_ACCEPT" ∧ n = req.nonce.toNat ∧
      ∃ quote, P.borrowAcceptPayload req.payload = some { quote, loanID } ∧
        q = { quote with borrower := req.sender.hex P.keccak256 }
  | .repay owner amount id n => req.action = "APPLY_REPAYMENT" ∧
      owner = req.sender.hex P.keccak256 ∧ n = req.nonce.toNat ∧
      P.repaymentPayload req.payload = some { amount, operationID := id }
  | .withdrawFromMandate owner id amount _ n => req.action = "WITHDRAW_FROM_MANDATE" ∧
      owner = req.sender.hex P.keccak256 ∧ n = req.nonce.toNat ∧
      ∃ destination, P.withdrawFromMandatePayload req.payload = some {
        mandateID := id, amount, destination }
  | _ => False

section Signed

variable {P : Platform} {cfg : Config} {action : Action} {t : Trace} {op : Operation}
  {payout : Payout} {req : SignedAction}

/-- **A signed operation is executed on an authorised action**, and is what that action asks for. -/
theorem Grounds.authorised (h : Grounds P cfg action t op payout)
    (hsigned : op.kind.isSigned = true) :
    ∃ req, Authorised P cfg action req ∧ req.Performs P op := by
  cases h with
  | borrowAccept _ _ authorised named parsed =>
      exact ⟨_, authorised, Bytes.utf8_inj named, rfl, _, parsed, rfl⟩
  | openAccount _ authorised named parsed => exact ⟨_, authorised, named, rfl, rfl, parsed⟩
  | setMandate _ authorised named parsed => exact ⟨_, authorised, named, rfl, rfl, parsed⟩
  | cancelMandate _ authorised named parsed => exact ⟨_, authorised, named, rfl, rfl, parsed⟩
  | withdrawFromMandate _ authorised named parsed =>
      exact ⟨_, authorised, named, rfl, rfl, _, parsed⟩
  | repay _ authorised named parsed => exact ⟨_, authorised, named, rfl, rfl, parsed⟩
  | _ => cases hsigned

/-- It takes the nonce the action names, from the account of its sender. -/
theorem SignedAction.Performs.consumes (h : req.Performs P op) :
    op.consumes = some (lower P.keccak256 req.sender, req.nonce.toNat) := by
  cases op with
  | openAccount => obtain ⟨_, rfl, rfl, _⟩ := h; rfl
  | setMandate => obtain ⟨_, rfl, rfl, _⟩ := h; rfl
  | cancelMandate => obtain ⟨_, rfl, rfl, _⟩ := h; rfl
  | acceptQuote => obtain ⟨_, rfl, _, _, rfl⟩ := h; rfl
  | repay => obtain ⟨_, rfl, rfl, _⟩ := h; rfl
  | withdrawFromMandate => obtain ⟨_, rfl, rfl, _⟩ := h; rfl
  | _ => exact h.elim

end Signed

/-! ### Nonces of a run -/

/-- The event takes a nonce of this account. -/
def Event.consumesFrom (key : String) : Event → Bool
  | .operate _ _ op => op.consumes.any fun c => c.1 = key
  | .confirm .. => false

theorem nonceWeight_eq (key : String) (e : Event) :
    e.nonceWeight key = if e.consumesFrom key then 1 else 0 := by
  cases e with
  | operate ctx stored op =>
      show (op.consumes.elim 0 fun c => if c.1 = key then 1 else 0) =
        if (op.consumes.any fun c => c.1 = key) = true then 1 else 0
      cases op.consumes with
      | none => rfl
      | some c => simp
  | confirm sequence root stored => rfl

section Runs

variable {S : Setup} {w : World}

/-- A nonce is the number of commits that took it. -/
theorem Coherent.nonce (h : Coherent S w) (key : String) :
    (w.ledger.accountAt key).nonce =
      (w.commits S).countP fun c => c.2.event.consumesFrom key := by
  rw [h.ledgerAfter, nonce_ledgerAfter, commits_events]
  generalize w.commits S = commits
  induction commits with
  | nil => rfl
  | cons c rest ih =>
      rw [List.countP_cons, ← ih]
      simp only [List.map_cons, List.sum_cons, nonceWeight_eq]
      exact Nat.add_comm _ _

/-- A commit that takes a nonce finds it current and leaves it behind. -/
theorem callStep_nonce {host : Host} {s s' : State} {c : Call} (hs : callStep host s c = .ok s') :
    (∀ key, (s.accountAt key).nonce ≤ (s'.accountAt key).nonce) ∧
      ∀ op key n, c.Operates op → op.consumes = some (key, n) →
        (s.accountAt key).nonce = n ∧ n < (s'.accountAt key).nonce := by
  constructor
  · intro key
    rw [step_nonce key s c.event s' hs]
    exact Nat.le_add_right _ _
  · rintro op key n ⟨ctx, stored, hevent⟩ hconsumes
    unfold callStep at hs
    rw [hevent] at hs
    obtain ⟨_, _, next, hbody, rfl⟩ := Operation.apply_ok hs
    have hnonces := body_nonces hbody
    rw [hconsumes] at hnonces
    have hnext := hnonces.2 key
    rw [if_pos rfl, hnonces.1] at hnext
    exact ⟨hnonces.1, by rw [show (anchored host op.kind op.operationID s next).accountAt key =
      next.accountAt key from rfl, hnext]; exact Nat.lt_succ_self n⟩

/-- **A nonce is taken once.** -/
theorem nonce_taken_once {c c' : State × Call} {op op' : Operation} {key : String} {n : Nat}
    (hc : c ∈ w.commits S) (hc' : c' ∈ w.commits S) (hop : c.2.Operates op)
    (hop' : c'.2.Operates op') (h : op.consumes = some (key, n))
    (h' : op'.consumes = some (key, n)) : c = c' := by
  have hpairs : (w.commits S).Pairwise fun c c' => ∀ op key n, c.2.Operates op →
      op.consumes = some (key, n) → n < (c'.1.accountAt key).nonce :=
    (Machine.pairwise_commits
      (Q := fun (c : State × Call) s => ∀ op key n, c.2.Operates op →
        op.consumes = some (key, n) → n < (s.accountAt key).nonce)
      (fun s c s' hs op key n hop hn => ((callStep_nonce hs).2 op key n hop hn).2)
      (fun c s a s' hQ hs op key n hop hn =>
        Nat.lt_of_lt_of_le (hQ op key n hop hn) ((callStep_nonce hs).1 key))
      newState w.calls).1
  have hcurrent : ∀ (d : State × Call) (o : Operation), d ∈ w.commits S → d.2.Operates o →
      o.consumes = some (key, n) → (d.1.accountAt key).nonce = n := by
    intro d o hd ho hn
    obtain ⟨_, _, s', _, _, hs⟩ := Machine.exists_prefix_of_mem_commits hd
    exact ((callStep_nonce hs).2 o key n ho hn).1
  refine Machine.eq_of_pairwise hpairs hc hc' ?_ ?_
  · intro hR
    exact absurd (hcurrent c' op' hc' hop' h') (Nat.ne_of_gt (hR op key n hop h))
  · intro hR
    exact absurd (hcurrent c op hc hop h) (Nat.ne_of_gt (hR op' key n hop' h'))

end Runs

/-! ### The result -/

/-- The action goes to `handleSignedDirect` or to `handleBorrowAccept`, if it is executed at
all. -/
def Action.IsSigned (P : Platform) (action : Action) : Prop :=
  (∃ di, DirectOf P action di ∧ di.opCommand ≠ toHash "RECOVER_DEPOSIT") ∨
    ∃ df, InstructionOf P action "BORROW_ACCEPT" df

theorem Grounds.isSigned {P : Platform} {cfg : Config} {action : Action} {t : Trace}
    {op : Operation} {payout : Payout} (h : Grounds P cfg action t op payout)
    (haction : action.IsSigned P) : op.kind.isSigned = true := by
  have hinstruction : ∀ {command : String} {df : DataFixed}, InstructionOf P action command df →
      toHash command = toHash "BORROW_ACCEPT" := by
    intro command df sent
    rcases haction with ⟨di, hdirect, _⟩ | ⟨df', hborrow⟩
    · have htype := sent.type
      rw [hdirect.type] at htype
      cases htype
    · have hparsed := sent.parsed
      rw [hborrow.parsed] at hparsed
      cases hparsed
      exact sent.command.symm.trans hborrow.command
  cases h with
  | deposit sent => exact absurd (hinstruction sent) (by decide)
  | backstop sent => exact absurd (hinstruction sent) (by decide)
  | riskTick sent => exact absurd (hinstruction sent) (by decide)
  | withdrawal sent => exact absurd (hinstruction sent) (by decide)
  | recoverDeposit sent command =>
      rcases haction with ⟨di, hdirect, hne⟩ | ⟨df, hborrow⟩
      · have hparsed := sent.parsed
        rw [hdirect.parsed] at hparsed
        cases hparsed
        exact absurd command hne
      · have htype := hborrow.type
        rw [sent.type] at htype
        cases htype
  | _ => rfl

/-- **Nothing is executed for an account that its key has not signed, and nothing twice.**  In
every state of every run: a nonce counts the commits that took it; a commit made on a signed action
is what that action asks for, on the account of its signer; two commits on signed actions with one
sender and one nonce are one commit; and equal digests are digests of one action, on one chain and
for one vault. -/
theorem actions_authorised (S : Setup) (moves : List Move) :
    (∀ key, ((worldAfter S moves).ledger.accountAt key).nonce =
      ((worldAfter S moves).commits S).countP fun c => c.2.event.consumesFrom key) ∧
    (∀ c ∈ (worldAfter S moves).commits S, ∀ op, c.2.Operates op →
      c.2.action.IsSigned S.platform → ∃ req, Authorised S.platform S.config c.2.action req ∧
        req.Performs S.platform op ∧
        op.consumes = some (lower S.platform.keccak256 req.sender, req.nonce.toNat)) ∧
    (∀ c ∈ (worldAfter S moves).commits S, ∀ c' ∈ (worldAfter S moves).commits S,
      ∀ op op' req req', c.2.Operates op → c'.2.Operates op' → c.2.action.IsSigned S.platform →
        c'.2.action.IsSigned S.platform → c.2.action.signed S.platform = some req →
        c'.2.action.signed S.platform = some req' → req.sender = req'.sender →
        req.nonce = req'.nonce → c = c') ∧
    ∀ req req' chainID' vault', CollisionFree S.platform.keccak256
        (digestPreimages S.platform.keccak256 req S.config.chainID S.config.vault ++
          digestPreimages S.platform.keccak256 req' chainID' vault') →
      signedActionDigest S.platform.keccak256 req S.config.chainID S.config.vault =
        signedActionDigest S.platform.keccak256 req' chainID' vault' →
      req.SameTerms req' ∧ S.config.chainID = chainID' ∧ S.config.vault = vault' := by
  have hcoherent := coherent_worldAfter S moves
  have hperforms : ∀ c ∈ (worldAfter S moves).commits S, ∀ op, c.2.Operates op →
      c.2.action.IsSigned S.platform → ∃ req, Authorised S.platform S.config c.2.action req ∧
        req.Performs S.platform op ∧
        op.consumes = some (lower S.platform.keccak256 req.sender, req.nonce.toNat) := by
    rintro c hc op ⟨ctx, stored, hevent⟩ hsigned
    obtain ⟨payout, hgrounds⟩ := (hcoherent.commits c hc ctx stored op hevent).grounds
    obtain ⟨req, hauth, hperforms⟩ := hgrounds.authorised (hgrounds.isSigned hsigned)
    exact ⟨req, hauth, hperforms, hperforms.consumes⟩
  refine ⟨hcoherent.nonce, hperforms, ?_, fun req req' chainID' vault' => signedActionDigest_inj⟩
  intro c hc c' hc' op op' req req' hop hop' hsigned hsigned' hreq hreq' hsender hnonce
  obtain ⟨req₁, hauth, _, hconsumes⟩ := hperforms c hc op hop hsigned
  obtain ⟨req₂, hauth', _, hconsumes'⟩ := hperforms c' hc' op' hop' hsigned'
  obtain rfl := Option.some.inj (hauth.carried.symm.trans hreq)
  obtain rfl := Option.some.inj (hauth'.carried.symm.trans hreq')
  rw [← hsender, ← hnonce] at hconsumes'
  exact nonce_taken_once hc hc' hop hop' hconsumes hconsumes'

end QuietLine
