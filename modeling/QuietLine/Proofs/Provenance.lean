/-
Where the operations and the settlements of a handler come from.

`Grounds` lists the ways in which a handler may come to call the engine: for each,
the message it was sent, the operation it calls and the payout it anchors
afterwards.  `Proper` is the discipline every handler keeps to: it calls
the engine once, on such grounds, and signs only a settlement drawn up from the
anchor that its last read of the state found pending.  `processAction_proper` walks
the handlers once; everything later in the development that is about handlers
rests on it.
-/
import QuietLine.Extension.Handlers

namespace QuietLine

open Process Process.Fallible

/-! ### What a message carries -/

/-- The action is an instruction of the vault for this command. -/
structure InstructionOf (P : Platform) (action : Action) (command : String) (df : DataFixed) :
    Prop where
  type : action.actionType = .instruction
  parsed : P.dataFixed action.message = some df
  command : df.opCommand = toHash command

/-- The action is a direct instruction. -/
structure DirectOf (P : Platform) (action : Action) (di : DirectInstruction) : Prop where
  type : action.actionType = .direct
  parsed : P.directInstruction action.message = some di

/-- The ciphertext an action carries, whichever way it came. -/
def Action.ciphertext (P : Platform) (action : Action) : Option (List UInt8) :=
  match action.actionType with
  | .instruction => (P.dataFixed action.message).bind fun df =>
      (decodeBorrow df.originalMessage).toOption.map fun decoded => decoded.2.1
  | .direct => (P.directInstruction action.message).map DirectInstruction.message
  | .other => none

/-- The signed action in it. -/
def Action.signed (P : Platform) (action : Action) : Option SignedAction :=
  ((action.ciphertext P).bind P.decrypt).bind P.signedAction

/-- The action carries `req`, and the sender `req` names has signed it. -/
structure Authorised (P : Platform) (cfg : Config) (action : Action) (req : SignedAction) :
    Prop where
  carried : action.signed P = some req
  signed : signer P cfg req = some req.sender

/-! ### Grounds -/

variable (P : Platform) (cfg : Config) (action : Action)

/-- On the trace `t`, the handler of `action` calls `op` and anchors it with `payout`. -/
inductive Grounds (t : Trace) : Operation → Payout → Prop
  | deposit {df : DataFixed} {sender token : Address} {amount : UInt64} {depositID : Hash}
      {asset : String} (sent : InstructionOf P action "DEPOSIT" df)
      (decoded : decodeDeposit df.originalMessage = .ok (sender, token, amount, depositID))
      (supported : assetForToken cfg token = .ok asset) :
      Grounds t (.deposit (sender.hex P.keccak256) asset amount depositID.hex)
        (Payout.checkpoint sender)
  | backstop {df : DataFixed} {funder : Address} {amount : UInt64} {depositID : Hash}
      (sent : InstructionOf P action "BACKSTOP_DEPOSIT" df)
      (decoded : decodeBackstopDeposit df.originalMessage = .ok (funder, amount, depositID)) :
      Grounds t (.seedBackstop amount depositID.hex) (Payout.checkpoint funder)
  | riskTick {df : DataFixed} {price timestamp : UInt64}
      (sent : InstructionOf P action "RISK_TICK" df)
      (decoded : decodeRisk df.originalMessage = .ok (price, timestamp)) :
      Grounds t (.riskTick (observedPrice price timestamp) action.id.hex)
        (Payout.checkpoint Address.zero)
  | withdrawal {df : DataFixed} {sender token destination : Address} {amount : UInt64}
      {asset : String} {n : Nat} (sent : InstructionOf P action "WITHDRAW_REQUEST" df)
      (decoded : decodeWithdrawal df.originalMessage = .ok (sender, token, amount, destination))
      (supported : assetForToken cfg token = .ok asset) :
      Grounds t (.withdraw (sender.hex P.keccak256) asset amount action.id.hex n)
        { settlementType := .userWithdrawal, account := sender, token, amount, destination }
  | borrowAccept {df : DataFixed} {ciphertext : List UInt8} {priceE6 timestamp : UInt64}
      {req : SignedAction} {payload : BorrowAcceptPayload}
      (sent : InstructionOf P action "BORROW_ACCEPT" df)
      (decoded : decodeBorrow df.originalMessage = .ok (req.sender, ciphertext, priceE6, timestamp))
      (authorised : Authorised P cfg action req)
      (named : Bytes.utf8 req.action = Bytes.utf8 "BORROW_ACCEPT")
      (parsed : P.borrowAcceptPayload req.payload = some payload) :
      Grounds t (.acceptQuote { payload.quote with borrower := req.sender.hex P.keccak256 }
          payload.loanID req.nonce.toNat (some (observedPrice priceE6 timestamp)))
        { settlementType := .borrowPayout, account := req.sender, token := cfg.usdt0,
          amount := payload.quote.amount, destination := req.sender }
  | openAccount {di : DirectInstruction} {req : SignedAction} {p : OpenAccountPayload}
      (sent : DirectOf P action di) (authorised : Authorised P cfg action req)
      (named : req.action = "OPEN_ACCOUNT") (parsed : P.openAccountPayload req.payload = some p) :
      Grounds t (.openAccount (req.sender.hex P.keccak256) p.operationID req.nonce.toNat)
        (Payout.checkpoint req.sender)
  | setMandate {di : DirectInstruction} {req : SignedAction} {p : SetMandatePayload}
      (sent : DirectOf P action di) (authorised : Authorised P cfg action req)
      (named : req.action = "SET_MANDATE") (parsed : P.setMandatePayload req.payload = some p) :
      Grounds t (.setMandate (req.sender.hex P.keccak256) p.mandateID p.amount p.minAPRBPS
          p.termMask p.perBorrowerCap req.nonce.toNat) (Payout.checkpoint req.sender)
  | cancelMandate {di : DirectInstruction} {req : SignedAction} {p : CancelMandatePayload}
      (sent : DirectOf P action di) (authorised : Authorised P cfg action req)
      (named : req.action = "CANCEL_MANDATE")
      (parsed : P.cancelMandatePayload req.payload = some p) :
      Grounds t (.cancelMandate (req.sender.hex P.keccak256) p.mandateID req.nonce.toNat)
        (Payout.checkpoint req.sender)
  | withdrawFromMandate {di : DirectInstruction} {req : SignedAction}
      {p : WithdrawFromMandatePayload} (sent : DirectOf P action di)
      (authorised : Authorised P cfg action req) (named : req.action = "WITHDRAW_FROM_MANDATE")
      (parsed : P.withdrawFromMandatePayload req.payload = some p) :
      Grounds t (.withdrawFromMandate (req.sender.hex P.keccak256) p.mandateID p.amount
          action.id.hex req.nonce.toNat)
        { settlementType := .userWithdrawal, account := req.sender, token := cfg.usdt0,
          amount := p.amount, destination := p.destination }
  | repay {di : DirectInstruction} {req : SignedAction} {p : RepaymentPayload}
      (sent : DirectOf P action di) (authorised : Authorised P cfg action req)
      (named : req.action = "APPLY_REPAYMENT")
      (parsed : P.repaymentPayload req.payload = some p) :
      Grounds t (.repay (req.sender.hex P.keccak256) p.amount p.operationID req.nonce.toNat)
        (Payout.checkpoint req.sender)
  | recoverDeposit {di : DirectInstruction} {payload : RecoverDepositPayload}
      {output : List UInt8} {record : DepositRecord} {asset : String}
      (sent : DirectOf P action di) (command : di.opCommand = toHash "RECOVER_DEPOSIT")
      (parsed : P.recoverDepositPayload di.message = some payload)
      (read : (⟨.callVault (.depositById payload.depositID), some output⟩ : Exchange) ∈ t)
      (unpacked : unpackDepositRecord output = some record)
      (matching : checkDepositRecord payload record = .ok ())
      (supported : assetForToken cfg payload.token = .ok asset) :
      Grounds t (.deposit (payload.account.hex P.keccak256) asset payload.amount
        payload.depositID.hex) (Payout.checkpoint payload.account)

/-! ### The discipline -/

/-- The handler has not called the engine yet. -/
def Untouched (t : Trace) : Prop := ∀ x ∈ t, ∀ op, x.request ≠ .mutate op

/-- The handler may take the read it draws a settlement from, and will pay `payout`. -/
inductive Anchors : Trace → Payout → Prop
  /-- It has just committed an operation. -/
  | own {t : Trace} {op : Operation} {payout : Payout} (untouched : Untouched t)
      (grounds : Grounds P cfg action t op payout) : Anchors (⟨.mutate op, .ok ()⟩ :: t) payout
  /-- It recovers an anchor, and found a recoverable one at its first read. -/
  | recovered {s : State} {pending : PendingAnchor} (found : s.pendingAnchor = some pending)
      (recoverable : pending.kind.recoverable = true) :
      Anchors [⟨.state .recovery, s⟩] (Payout.checkpoint Address.zero)

/-- What a handler may ask. -/
def Proper (t : Trace) : Request → Prop
  | .mutate op => Untouched t ∧ ∃ payout, Grounds P cfg action t op payout
  | .state .settlement => ∃ payout, Anchors P cfg action t payout
  | .sign settlement => ∃ t₀ s pending now payout,
      t = ⟨.clock, now⟩ :: ⟨.state .settlement, s⟩ :: t₀ ∧ Anchors P cfg action t₀ payout ∧
        s.pendingAnchor = some pending ∧
        settlement = pending.settlement P.keccak256 action.id payout now
  | .confirmAnchor sequence root => ∃ sequenceRaw rootRaw,
      (⟨.callVault .stateSequence, some sequenceRaw⟩ : Exchange) ∈ t ∧
        (⟨.callVault .stateRoot, some rootRaw⟩ : Exchange) ∈ t ∧
        Bytes.ofBigEndian sequenceRaw = sequence ∧
        Bytes.Fixed.ofList 32 rootRaw = hexToHash root
  | _ => True

/-- What a handler may answer: only a recovery whose deposit the engine called a duplicate reports
it as already processed. -/
def Reported (t : Trace) (reply : Reply) : Prop :=
  reply = .alreadyProcessed → ∃ di payload asset cause rest,
    DirectOf P action di ∧ di.opCommand = toHash "RECOVER_DEPOSIT" ∧
      P.recoverDepositPayload di.message = some payload ∧
      assetForToken cfg payload.token = .ok asset ∧
      t = ⟨.mutate (.deposit (payload.account.hex P.keccak256) asset payload.amount
        payload.depositID.hex), .error cause⟩ :: rest ∧ cause.isDuplicate = true

/-- From the trace on, the program keeps to the discipline; errors end it. -/
abbrev KeepsTo {α : Type} (t : Trace) (x : Handler α) (ok : Trace → α → Prop) : Prop :=
  Fallible.Obeys (Proper P cfg action) ok (fun _ _ => True) t x

variable {P cfg action}

theorem Untouched.nil : Untouched [] := by
  intro x hx
  simp at hx

theorem Untouched.cons {t : Trace} {x : Exchange} (h : Untouched t)
    (hx : ∀ op, x.request ≠ .mutate op) : Untouched (x :: t) := by
  intro y hy
  rcases List.mem_cons.mp hy with rfl | hy
  · exact hx
  · exact h y hy

section Rules

variable {α β : Type} {t : Trace} {ok : Trace → α → Prop} {out : Trace → β → Prop}

theorem KeepsTo.attempt {x : Except HandlerError α} {f : α → Handler β}
    (h : ∀ a, x = .ok a → KeepsTo P cfg action t (f a) out) :
    KeepsTo P cfg action t (Handler.attempt x >>= f) out :=
  Fallible.Obeys.ofExcept (fun _ _ => trivial) h

theorem KeepsTo.orElse {o : Option α} {err : HandlerError} {f : α → Handler β}
    (h : ∀ a, o = some a → KeepsTo P cfg action t (f a) out) :
    KeepsTo P cfg action t (Handler.orElse err o >>= f) out :=
  KeepsTo.attempt fun a ha => h a (Outcome.orElse_eq_ok.mp ha)

theorem KeepsTo.rejectIf {bad : Prop} [Decidable bad] {err : HandlerError} {f : Unit → Handler β}
    (h : ¬ bad → KeepsTo P cfg action t (f ()) out) :
    KeepsTo P cfg action t (Handler.rejectIf bad err >>= f) out :=
  KeepsTo.attempt fun _ ha => h (Outcome.rejectIf_eq_ok.mp ha)

/-- A request the discipline does not restrict. -/
theorem KeepsTo.ask {r : Request} {f : Response r → Handler β}
    (hr : Proper P cfg action t r)
    (h : ∀ x, KeepsTo P cfg action (⟨r, x⟩ :: t) (f x) out) :
    KeepsTo P cfg action t (Handler.perform r >>= f) out :=
  Fallible.Obeys.ask hr h

theorem KeepsTo.ite {c : Prop} [Decidable c] {x y : Handler α}
    (hx : c → KeepsTo P cfg action t x ok) (hy : ¬ c → KeepsTo P cfg action t y ok) :
    KeepsTo P cfg action t (if c then x else y) ok := by
  by_cases h : c
  · rw [if_pos h]; exact hx h
  · rw [if_neg h]; exact hy h

end Rules

/-! ### The parts of the handlers -/

/-- A call of the engine on these grounds; after it the handler may anchor what it committed. -/
theorem operate_proper {t : Trace} {op : Operation} {payout : Payout} (hu : Untouched t)
    (hg : Grounds P cfg action t op payout) :
    KeepsTo P cfg action t (Handler.operate op) fun t' _ => Anchors P cfg action t' payout := by
  refine KeepsTo.ask ⟨hu, payout, hg⟩ ?_
  intro answer
  cases answer with
  | error cause => exact trivial
  | ok u => exact Anchors.own hu hg

theorem anchorSettlement_proper {t : Trace} {payout : Payout}
    (h : Anchors P cfg action t payout) :
    KeepsTo P cfg action t (anchorSettlement P action.id payout) fun _ _ => True := by
  refine KeepsTo.ask ⟨payout, h⟩ ?_
  intro s
  refine KeepsTo.orElse ?_
  intro pending hpending
  refine KeepsTo.ask trivial ?_
  intro now
  refine KeepsTo.ask ⟨t, s, pending, now, payout, rfl, h, hpending, rfl⟩ ?_
  intro signed
  exact KeepsTo.rejectIf fun _ => trivial

theorem requireLiquidity_proper {t : Trace} {token : Address} {amount : UInt64}
    (h : Untouched t) :
    KeepsTo P cfg action t (requireLiquidity token amount) fun t' _ => Untouched t' := by
  refine KeepsTo.ask trivial ?_
  intro balance
  refine KeepsTo.orElse fun _ _ => ?_
  have hu : Untouched (⟨.vaultLiquidity token, balance⟩ :: t) := h.cons (by intro op; nofun)
  unfold Handler.rejectIf Outcome.rejectIf
  by_cases hlow : ‹UInt64› < amount
  · rw [if_pos hlow]; exact trivial
  · rw [if_neg hlow]; exact hu

/-- Verification: the sender has signed the action, and it is the one expected. -/
theorem verifySignedAction_proper {t : Trace} {req : SignedAction} {expected : List UInt8}
    (h : Untouched t) :
    KeepsTo P cfg action t (verifySignedAction P cfg req expected) fun t' _ =>
      Untouched t' ∧ signer P cfg req = some req.sender ∧ Bytes.utf8 req.action = expected := by
  refine KeepsTo.rejectIf fun hnamed => ?_
  refine KeepsTo.ask trivial fun now => ?_
  refine KeepsTo.rejectIf fun _ => KeepsTo.rejectIf fun _ => KeepsTo.rejectIf fun _ => ?_
  refine KeepsTo.orElse fun recovered hrecovered => ?_
  refine KeepsTo.rejectIf fun hsender => ?_
  refine KeepsTo.ask trivial fun s => ?_
  refine KeepsTo.rejectIf fun _ => ?_
  have hu : Untouched (⟨.state .verification, s⟩ :: ⟨.clock, now⟩ :: t) :=
    (h.cons (by intro op; nofun)).cons (by intro op; nofun)
  have hpost : Untouched (⟨.state .verification, s⟩ :: ⟨.clock, now⟩ :: t) ∧
      signer P cfg req = some req.sender ∧ Bytes.utf8 req.action = expected :=
    ⟨hu, by rw [hrecovered, not_not.mp hsender], not_not.mp hnamed⟩
  cases s.accounts[lower P.keccak256 req.sender]? with
  | none => exact hpost
  | some a =>
      dsimp only
      unfold Handler.rejectIf Outcome.rejectIf
      split
      · exact trivial
      · exact hpost

/-! ### The handlers -/

/-- What every handler keeps to from its start. -/
abbrev Handles (P : Platform) (cfg : Config) (action : Action) (t : Trace) (x : Handler Reply) :
    Prop :=
  KeepsTo P cfg action t x (Reported P cfg action)

/-- After the anchor is drawn up there is only the reply to give. -/
theorem handles_anchored {t : Trace} {payout : Payout} {reply : Settlement → Reply}
    (h : Anchors P cfg action t payout) (hreply : ∀ s, reply s ≠ .alreadyProcessed) :
    Handles P cfg action t (anchorSettlement P action.id payout >>= fun s => pure (reply s)) :=
  Fallible.Obeys.bind (anchorSettlement_proper h) fun _ s _ =>
    Fallible.Obeys.pure fun hs => absurd hs (hreply s)

theorem handleDeposit_proper {df : DataFixed} (h : InstructionOf P action "DEPOSIT" df) :
    Handles P cfg action [] (handleDeposit P cfg action df) := by
  refine KeepsTo.attempt ?_
  rintro ⟨sender, token, amount, depositID⟩ hdecoded
  refine KeepsTo.attempt fun asset hasset => ?_
  refine Fallible.Obeys.bind (operate_proper Untouched.nil (.deposit h hdecoded hasset)) ?_
  intro t _ ht
  exact handles_anchored ht (by intro s; nofun)

theorem handleBackstopDeposit_proper {df : DataFixed}
    (h : InstructionOf P action "BACKSTOP_DEPOSIT" df) :
    Handles P cfg action [] (handleBackstopDeposit P action df) := by
  refine KeepsTo.attempt ?_
  rintro ⟨funder, amount, depositID⟩ hdecoded
  refine Fallible.Obeys.bind (operate_proper Untouched.nil (.backstop h hdecoded)) ?_
  intro t _ ht
  exact handles_anchored ht (by intro s; nofun)

theorem handleRiskTick_proper {df : DataFixed} (h : InstructionOf P action "RISK_TICK" df) :
    Handles P cfg action [] (handleRiskTick P action df) := by
  refine KeepsTo.attempt ?_
  rintro ⟨price, timestamp⟩ hdecoded
  refine Fallible.Obeys.bind (operate_proper Untouched.nil (.riskTick h hdecoded)) ?_
  intro t _ ht
  exact handles_anchored ht (by intro s; nofun)

theorem handleWithdrawal_proper {df : DataFixed}
    (h : InstructionOf P action "WITHDRAW_REQUEST" df) :
    Handles P cfg action [] (handleWithdrawal P cfg action df) := by
  refine KeepsTo.attempt ?_
  rintro ⟨sender, token, amount, destination⟩ hdecoded
  refine KeepsTo.attempt fun asset hasset => ?_
  refine Fallible.Obeys.bind (requireLiquidity_proper Untouched.nil) ?_
  intro t _ hu
  refine KeepsTo.ask trivial fun s => KeepsTo.orElse fun account _ => ?_
  have hu' : Untouched (⟨.state .withdrawal, s⟩ :: t) := hu.cons (by intro op; nofun)
  refine Fallible.Obeys.bind (operate_proper hu' (.withdrawal h hdecoded hasset)) ?_
  intro t _ ht
  exact handles_anchored ht (by intro s; nofun)

theorem handleBorrowAccept_proper {df : DataFixed} (h : InstructionOf P action "BORROW_ACCEPT" df) :
    Handles P cfg action [] (handleBorrowAccept P cfg action df) := by
  refine KeepsTo.attempt ?_
  rintro ⟨sender, ciphertext, priceE6, timestamp⟩ hdecoded
  refine KeepsTo.orElse fun plain hplain => KeepsTo.orElse fun req hreq => ?_
  refine KeepsTo.rejectIf fun hsender => ?_
  obtain rfl : req.sender = sender := not_not.mp hsender
  refine Fallible.Obeys.bind (verifySignedAction_proper Untouched.nil) ?_
  rintro t _ ⟨hu, hsigned, hnamed⟩
  refine KeepsTo.orElse fun payload hpayload => ?_
  have hcarried : action.signed P = some req := by
    simp [Action.signed, Action.ciphertext, h.type, h.parsed, hdecoded, Except.toOption, hplain,
      hreq]
  have hg := Grounds.borrowAccept (t := t) h hdecoded ⟨hcarried, hsigned⟩ hnamed hpayload
  refine Fallible.Obeys.bind (operate_proper hu hg) ?_
  intro t _ ht
  exact handles_anchored ht (by intro s; nofun)

/-- A branch of the `switch` that mutates the ledger leaves its anchor to the generic checkpoint;
the others leave nothing to anchor. -/
def Switched (P : Platform) (cfg : Config) (action : Action) (req : SignedAction) (t : Trace)
    (_ : Performed) : Prop :=
  isMutation req.action = true → Anchors P cfg action t (Payout.checkpoint req.sender)

theorem operate_switched {t : Trace} {op : Operation} {req : SignedAction} (hu : Untouched t)
    (hg : Grounds P cfg action t op (Payout.checkpoint req.sender)) :
    KeepsTo P cfg action t
      (Handler.operate op >>= fun _ => (pure (.none, none) : Handler Performed))
      (Switched P cfg action req) :=
  Fallible.Obeys.bind (operate_proper hu hg) fun _ _ ht => Fallible.Obeys.pure fun _ => ht

theorem accountView_proper {t : Trace} {sender : Address} :
    KeepsTo P cfg action t (accountView P sender) fun _ _ => True :=
  KeepsTo.ask trivial fun _ => KeepsTo.ask trivial fun _ => trivial

theorem performAction_proper {t : Trace} {di : DirectInstruction} {req : SignedAction}
    (hu : Untouched t) (h : DirectOf P action di) (hauth : Authorised P cfg action req) :
    KeepsTo P cfg action t (performAction P cfg action req) (Switched P cfg action req) := by
  have hother : isMutation req.action = false → ∀ t v, Switched P cfg action req t v := by
    intro hno t v hyes
    rw [hno] at hyes
    cases hyes
  unfold performAction
  refine KeepsTo.ite (fun hname => ?_) fun _ => ?_
  · exact KeepsTo.orElse fun p hp => operate_switched hu (.openAccount h hauth hname hp)
  refine KeepsTo.ite (fun hname => ?_) fun _ => ?_
  · exact KeepsTo.orElse fun p hp => operate_switched hu (.setMandate h hauth hname hp)
  refine KeepsTo.ite (fun hname => ?_) fun _ => ?_
  · exact KeepsTo.orElse fun p hp => operate_switched hu (.cancelMandate h hauth hname hp)
  refine KeepsTo.ite (fun hname => ?_) fun _ => ?_
  · refine KeepsTo.orElse fun p hp => ?_
    refine Fallible.Obeys.bind (requireLiquidity_proper hu) fun t _ hu => ?_
    refine Fallible.Obeys.bind (operate_proper hu (.withdrawFromMandate h hauth hname hp)) ?_
    intro t _ ht
    refine Fallible.Obeys.bind (anchorSettlement_proper ht) fun t _ _ => ?_
    exact Fallible.Obeys.pure (hother (by rw [hname]; decide) _ _)
  refine KeepsTo.ite (fun hname => ?_) fun _ => ?_
  · refine KeepsTo.orElse fun p hp => KeepsTo.ask trivial fun price => ?_
    refine KeepsTo.orElse fun price _ => KeepsTo.ask trivial fun quoted => ?_
    exact KeepsTo.attempt fun q _ => Fallible.Obeys.pure (hother (by rw [hname]; decide) _ _)
  refine KeepsTo.ite (fun hname => ?_) fun _ => ?_
  · exact KeepsTo.orElse fun p hp => operate_switched hu (.repay h hauth hname hp)
  refine KeepsTo.ite (fun hname => ?_) fun _ => ?_
  · refine Fallible.Obeys.bind accountView_proper fun t view _ => ?_
    exact KeepsTo.attempt fun v _ => Fallible.Obeys.pure (hother (by rw [hname]; decide) _ _)
  refine KeepsTo.ite (fun hname => ?_) fun _ => trivial
  refine KeepsTo.orElse fun p hp => ?_
  have hstress : KeepsTo P cfg action t (stressView P req.sender p.xrpUSDE6) fun _ _ => True := by
    refine Fallible.Obeys.bind accountView_proper fun t view _ => KeepsTo.orElse fun loan _ => ?_
    refine KeepsTo.ask trivial fun now => ?_
    unfold Handler.attempt
    cases stressFigures loan p.xrpUSDE6 now <;> exact trivial
  refine Fallible.Obeys.bind hstress fun t view _ => ?_
  exact Fallible.Obeys.pure (hother (by rw [hname]; decide) _ _)

theorem handleSignedDirect_proper {t : Trace} {di : DirectInstruction} {req : SignedAction}
    (hu : Untouched t) (h : DirectOf P action di) (hauth : Authorised P cfg action req) :
    Handles P cfg action t (handleSignedDirect P cfg action req) := by
  refine Fallible.Obeys.bind (performAction_proper hu h hauth) ?_
  rintro t ⟨view, anchor⟩ hswitched
  have hanchor : KeepsTo P cfg action t (anchorMutation P action req anchor) fun _ _ => True := by
    refine KeepsTo.ite (fun hmut => ?_) fun _ => trivial
    exact Fallible.Obeys.bind (anchorSettlement_proper (hswitched hmut)) fun _ _ _ => trivial
  refine Fallible.Obeys.bind hanchor fun t anchor _ => ?_
  exact KeepsTo.orElse fun ciphertext _ => Fallible.Obeys.pure (by intro heq; cases heq)

/-- What the two chain reads leave behind, in either order. -/
theorem readAnchorState_proper {t : Trace} :
    KeepsTo P cfg action t readAnchorState fun t' read =>
      (⟨.callVault .stateSequence, read.1⟩ : Exchange) ∈ t' ∧
        (⟨.callVault .stateRoot, read.2⟩ : Exchange) ∈ t' := by
  refine KeepsTo.ask trivial fun sequenceFirst => ?_
  refine KeepsTo.ite (fun _ => ?_) fun _ => ?_
  · refine KeepsTo.ask trivial fun sequence => KeepsTo.ask trivial fun root => ?_
    exact Fallible.Obeys.pure ⟨by simp, by simp⟩
  · refine KeepsTo.ask trivial fun root => KeepsTo.ask trivial fun sequence => ?_
    exact Fallible.Obeys.pure ⟨by simp, by simp⟩

/-- A confirmation that passes was read off the vault. -/
theorem checkAnchorState_ok {sequence : UInt64} {root : String}
    {read : Option (List UInt8) × Option (List UInt8)}
    (h : checkAnchorState sequence root read = .ok ()) :
    ∃ sequenceRaw rootRaw, read.1 = some sequenceRaw ∧ read.2 = some rootRaw ∧
      Bytes.ofBigEndian sequenceRaw = sequence.toNat ∧
      Bytes.Fixed.ofList 32 rootRaw = hexToHash root := by
  unfold checkAnchorState at h
  simp only [Outcome.bind_eq_ok, Outcome.orElse_eq_ok, Outcome.rejectIf_eq_ok] at h
  obtain ⟨sequenceRaw, hsequence, rootRaw, hroot, _, _, _, hmatch, hrootMatch⟩ := h
  exact ⟨sequenceRaw, rootRaw, hsequence, hroot, not_not.mp hmatch, not_not.mp hrootMatch⟩

theorem handleAnchorConfirmation_proper {t : Trace} {message : List UInt8} :
    Handles P cfg action t (handleAnchorConfirmation P message) := by
  refine KeepsTo.orElse fun payload _ => ?_
  refine Fallible.Obeys.bind readAnchorState_proper ?_
  rintro t ⟨sequence, root⟩ ⟨hsequence, hroot⟩
  refine KeepsTo.attempt fun _ hcheck => ?_
  obtain ⟨sequenceRaw, rootRaw, rfl, rfl, hseq, hhash⟩ := checkAnchorState_ok hcheck
  refine KeepsTo.ask ⟨sequenceRaw, rootRaw, hsequence, hroot, hseq, hhash⟩ fun answer => ?_
  exact KeepsTo.attempt fun _ _ => Fallible.Obeys.pure (by intro heq; cases heq)

theorem handleAnchorRecovery_proper :
    Handles P cfg action [] (handleAnchorRecovery P action) := by
  refine KeepsTo.ask trivial fun s => ?_
  refine KeepsTo.orElse fun pending hpending => KeepsTo.rejectIf fun hkind => ?_
  have hrecoverable : pending.kind.recoverable = true := by simpa using hkind
  exact handles_anchored (Anchors.recovered hpending hrecoverable) (by intro s; nofun)

theorem handleDepositRecovery_proper {di : DirectInstruction} (h : DirectOf P action di)
    (hcommand : di.opCommand = toHash "RECOVER_DEPOSIT") :
    Handles P cfg action [] (handleDepositRecovery P cfg action di.message) := by
  refine KeepsTo.orElse fun payload hpayload => ?_
  have hverify : KeepsTo P cfg action [] (verifyDepositRecord payload) fun t _ =>
      Untouched t ∧ ∃ output record,
        (⟨.callVault (.depositById payload.depositID), some output⟩ : Exchange) ∈ t ∧
          unpackDepositRecord output = some record ∧
          checkDepositRecord payload record = .ok () := by
    refine KeepsTo.rejectIf fun _ => KeepsTo.ask trivial fun output => ?_
    refine KeepsTo.orElse fun raw hraw => KeepsTo.orElse fun record hrecord => ?_
    cases hcheck : checkDepositRecord payload record with
    | error err => exact trivial
    | ok u =>
        refine ⟨Untouched.nil.cons (by intro op; nofun), raw, record, ?_, hrecord, hcheck⟩
        rw [hraw]
        exact List.mem_cons_self
  refine Fallible.Obeys.bind hverify ?_
  rintro t _ ⟨hu, output, record, hread, hrecord, hcheck⟩
  refine KeepsTo.attempt fun asset hasset => ?_
  have hg := Grounds.recoverDeposit h hcommand hpayload hread hrecord hcheck hasset
  refine KeepsTo.ask ⟨hu, _, hg⟩ fun answer => ?_
  cases answer with
  | ok u => exact handles_anchored (Anchors.own hu hg) (by intro s; nofun)
  | error cause =>
      refine KeepsTo.ite (fun hdup => ?_) fun _ => trivial
      exact Fallible.Obeys.pure fun _ =>
        ⟨di, payload, asset, cause, t, h, hcommand, hpayload, hasset, rfl, hdup⟩

/-- **Every handler keeps to the discipline**, whatever it is sent and whatever it is told. -/
theorem processAction_proper (P : Platform) (cfg : Config) (action : Action) :
    Handles P cfg action [] (processAction P cfg action) := by
  unfold processAction
  cases htype : action.actionType with
  | instruction =>
      refine KeepsTo.orElse fun df hdf => KeepsTo.rejectIf fun _ => ?_
      refine KeepsTo.ite (fun hc => handleDeposit_proper ⟨htype, hdf, hc⟩) fun _ => ?_
      refine KeepsTo.ite (fun hc => handleBorrowAccept_proper ⟨htype, hdf, hc⟩) fun _ => ?_
      refine KeepsTo.ite (fun hc => handleWithdrawal_proper ⟨htype, hdf, hc⟩) fun _ => ?_
      refine KeepsTo.ite (fun hc => handleRiskTick_proper ⟨htype, hdf, hc⟩) fun _ => ?_
      refine KeepsTo.ite (fun hc => handleBackstopDeposit_proper ⟨htype, hdf, hc⟩) fun _ => ?_
      exact trivial
  | direct =>
      refine KeepsTo.orElse fun di hdi => KeepsTo.rejectIf fun _ => ?_
      refine KeepsTo.ite (fun _ => handleAnchorConfirmation_proper) fun _ => ?_
      refine KeepsTo.ite (fun _ => handleAnchorRecovery_proper) fun _ => ?_
      refine KeepsTo.ite (fun hc => handleDepositRecovery_proper ⟨htype, hdi⟩ hc) fun _ => ?_
      refine KeepsTo.orElse fun plain hplain => KeepsTo.orElse fun req hreq => ?_
      refine Fallible.Obeys.bind (verifySignedAction_proper Untouched.nil) ?_
      rintro t _ ⟨hu, hsigned, _⟩
      have hcarried : action.signed P = some req := by
        simp [Action.signed, Action.ciphertext, htype, hdi, hplain, hreq]
      exact handleSignedDirect_proper hu ⟨htype, hdi⟩ ⟨hcarried, hsigned⟩
  | other => exact trivial

end QuietLine
