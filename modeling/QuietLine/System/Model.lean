/-
The system: the engine and its store, the handlers that run beside each other, the
vault, and the settlements signed so far.

A step is one atomic action of one party: a message arrives and starts a handler,
a running handler makes its next request, the vault takes a transaction, anyone
submits a settlement to it, or the extension restarts from its store.  A handler
that waits is one that is not advanced; a mutation that is advanced while an anchor
is pending is one whose wait has timed out.  A restart loses every handler that was
running.

Two things are kept for the proofs alone: each handler carries the exchanges it has
had, and the engine the calls that were made of it and by which handler.
-/
import QuietLine.Extension.Handlers

namespace QuietLine

/-- The parts of the system that are not its state. -/
structure Setup where
  platform : Platform
  config : Config
  host : Host

/-- What becomes of a request for a signature. -/
inductive Signing where
  | refused
  /-- The TEE signs, but the signature does not reach the handler. -/
  | lost
  | returned
  deriving DecidableEq, Repr

/-- What a request is answered, where the ledger and the vault do not decide it. -/
structure Answer where
  ctx : Context
  stored : Bool := true
  clock : Int := 0
  liquidity : Option UInt64 := none
  price : Option Price := none
  sequenceFirst : Bool := true
  reachable : Bool := true
  signing : Signing := .returned

/-- A handler that has been started. -/
structure Started where
  action : Action
  trace : Trace := []
  process : Running

/-- A call of the engine: which handler made it, and what that handler had seen. -/
structure Call where
  pid : Nat
  action : Action
  trace : Trace
  event : Event

structure World where
  /-- The state the engine holds. -/
  ledger : State := newState
  /-- The state the store holds. -/
  stored : State := newState
  vault : Vault := {}
  handlers : List Started := []
  /-- The handlers below this one did not survive the last restart. -/
  lost : Nat := 0
  signed : List Settlement := []
  calls : List Call := []

/-! ### Answering a request -/

/-- A view of the vault. -/
def Vault.view (v : Vault) : VaultRead → List UInt8
  | .stateSequence => Bytes.bigEndian 32 v.stateSequence
  | .stateRoot => v.stateRoot.toList
  | .depositById depositID => packDepositRecord (v.depositById depositID)

/-- The ledger's part of a call. -/
def callStep (host : Host) (s : State) (call : Call) : Except LedgerError State :=
  step .wrapping host s call.event

def World.call (S : Setup) (call : Call) (w : World) : World × Except LedgerError Unit :=
  let w := { w with calls := w.calls ++ [call] }
  match callStep S.host w.ledger call with
  | .ok s => ({ w with ledger := s, stored := s }, .ok ())
  | .error cause => (w, .error cause)

/-- One request of the handler `h`, which runs as `pid`. -/
def World.respond (S : Setup) (pid : Nat) (h : Started) (a : Answer) (w : World) :
    (r : Request) → World × Response r
  | .state _ => (w, w.ledger)
  | .mutate op =>
      w.call S { pid, action := h.action, trace := h.trace, event := .operate a.ctx a.stored op }
  | .confirmAnchor sequence root =>
      w.call S
        { pid, action := h.action, trace := h.trace, event := .confirm sequence root a.stored }
  | .quoteAtPrice req price =>
      (w, quoteAtPrice S.host a.ctx.range w.ledger req price a.ctx.now)
  | .clock => (w, a.clock)
  | .vaultLiquidity _ => (w, a.liquidity)
  | .currentXrpUsdPrice => (w, a.price)
  | .sequenceFirst => (w, a.sequenceFirst)
  | .callVault read => (w, if a.reachable then some (w.vault.view read) else none)
  | .rangeOrder => (w, a.ctx.range)
  | .sign settlement =>
      (if a.signing = .refused then w else { w with signed := w.signed ++ [settlement] },
        a.signing = .returned)

/-! ### Steps -/

inductive Move where
  /-- A message arrives. -/
  | receive (action : Action)
  /-- A handler makes its next request. -/
  | advance (pid : Nat) (answer : Answer)
  /-- The vault takes a transaction. -/
  | transact (tx : Tx) (call : VaultCall)
  /-- A settlement is submitted to the vault, by anyone. -/
  | execute (tx : Tx) (settlement : Settlement)
  /-- The extension stops and is started again. -/
  | restart

inductive Refusal where
  | noSuchHandler
  | finished
  | vault (cause : VaultError)
  deriving DecidableEq, Repr

def ofVault {α : Type} : Except VaultError α → Except Refusal α
  | .ok a => .ok a
  | .error cause => .error (.vault cause)

/-- The handler has its answer. -/
def Started.answer (h : Started) (r : Request) (x : Response r) (next : Running) : Started :=
  { h with trace := ⟨r, x⟩ :: h.trace, process := next }

def World.advance (S : Setup) (pid : Nat) (a : Answer) (w : World) : Except Refusal World :=
  match w.handlers[pid]? with
  | none => .error .noSuchHandler
  | some h =>
      if pid < w.lost then
        .error .noSuchHandler
      else
        match h.process with
        | .done _ => .error .finished
        | .call r k =>
            let responded := w.respond S pid h a r
            .ok { responded.1 with
              handlers := responded.1.handlers.set pid (h.answer r responded.2 (k responded.2)) }

def World.step (S : Setup) (w : World) : Move → Except Refusal World
  | .receive action =>
      .ok { w with
        handlers := w.handlers ++
          [{ action, process := (processAction S.platform S.config action).run }] }
  | .advance pid answer => w.advance S pid answer
  | .transact tx call => do
      let vault ← ofVault (call.apply S.platform.keccak256 S.config tx w.vault)
      return { w with vault }
  | .execute tx settlement => do
      -- a signature verifies only under a settlement that the TEE has signed
      let authorized := tx.signerActive && decide (settlement ∈ w.signed)
      let vault ← ofVault (w.vault.executeSettlement S.config tx authorized settlement)
      return { w with vault }
  | .restart => .ok { w with ledger := w.stored, lost := w.handlers.length }

/-- The world after a list of moves, refused ones included. -/
def worldAfter (S : Setup) (moves : List Move) : World := Machine.run (World.step S) {} moves

/-- The calls of the engine that were committed, each with the state it was committed in. -/
def World.commits (S : Setup) (w : World) : List (State × Call) :=
  Machine.commits (callStep S.host) newState w.calls

/-! ### Sample runs -/

/-- The commands a sample message can name, by their place. -/
def sampleCommands : List String :=
  ["DEPOSIT", "BACKSTOP_DEPOSIT", "BORROW_ACCEPT", "WITHDRAW_REQUEST", "RISK_TICK",
    "ANCHOR_CONFIRMED", "RECOVER_ANCHOR", "RECOVER_DEPOSIT", "SET_MANDATE",
    "WITHDRAW_FROM_MANDATE", "ACCOUNT_QUERY"]

def sampleAddress (b : UInt8) : Address := Bytes.Fixed.ofList 20 [b]

/-- The root under `sampleHost` of the state with this number. -/
def sampleRoot (sequence : UInt8) : String := Hash.hex (Bytes.Fixed.ofList 32 [sequence])

/-- The first byte names the command, the rest is its message. -/
def parseSample {α : Type} (f : Hash → Hash → List UInt8 → α) : List UInt8 → Option α
  | tag :: message => sampleCommands[tag.toNat]?.map fun command =>
      f (toHash "CREDIT") (toHash command) message
  | [] => none

/-- A platform for sample runs: nothing is encrypted, a digest is the end of what it is taken of,
and a signature begins with the address it is of. -/
def samplePlatform : Platform where
  keccak256 := Bytes.Fixed.ofList 32
  recover _ signature := some (Bytes.Fixed.ofList 20 (signature.take 20))
  decrypt := some
  encrypt plain _ := some plain
  marshalView _ := []
  dataFixed := parseSample DataFixed.mk
  directInstruction := parseSample DirectInstruction.mk
  signedAction
    | sender :: nonce :: tag :: payload => sampleCommands[tag.toNat]?.map fun action => {
        sender := sampleAddress sender, nonce := nonce.toUInt64, deadline := 2000, action, payload
        responsePublicKey := 4 :: List.replicate 64 0
        signature := (sampleAddress sender).toList ++ List.replicate 45 0 }
    | _ => none
  openAccountPayload _ := none
  setMandatePayload
    | [amount] => some {
        mandateID := "m", amount := amount.toUInt64, minAPRBPS := 800, termMask := 7
        perBorrowerCap := amount.toUInt64 }
    | _ => none
  cancelMandatePayload _ := none
  withdrawFromMandatePayload
    | [amount, destination] => some {
        mandateID := "m", amount := amount.toUInt64, destination := sampleAddress destination }
    | _ => none
  quotePayload _ := none
  borrowAcceptPayload _ := none
  repaymentPayload _ := none
  stressQueryPayload _ := none
  anchorConfirmedPayload
    | [sequence] => some { sequence := sequence.toUInt64, root := sampleRoot sequence }
    | _ => none
  recoverDepositPayload _ := none

def sampleSetup : Setup where
  platform := samplePlatform
  config :=
    { chainID := 114, vault := sampleAddress 90, fxrp := sampleAddress 91
      usdt0 := sampleAddress 92 }
  host := sampleHost

/-- Message number `id`, for this command. -/
def sampleAction (id : UInt8) (actionType : ActionType) (command : String)
    (body : List UInt8) : Action where
  id := Bytes.Fixed.ofList 32 [id]
  actionType
  message := UInt8.ofNat (sampleCommands.idxOf command) :: body

/-- What a signed message carries: the sender, the nonce, the action and its payload. -/
def sampleSigned (sender nonce : UInt8) (action : String) (payload : List UInt8) : List UInt8 :=
  sender :: nonce :: UInt8.ofNat (sampleCommands.idxOf action) :: payload

def sampleAnswer : Answer where
  ctx := { requestedAt := 1000, now := 1000, range := RangeOrder.sorted }
  clock := 1000
  liquidity := some 1000

/-- A transaction of this sender over so much. -/
def sampleTx (sender : UInt8) (received : Nat) : Tx where
  sender := sampleAddress sender
  timestamp := 1000
  received
  liquidity := 1000

/-- The handler makes its next `n` requests. -/
def sampleAdvance (pid n : Nat) : List Move := List.replicate n (.advance pid sampleAnswer)

/-- The settlement of sequence number `n + 1`, drawn up for this message. -/
def sampleSettlement (n : UInt8) (kind : OpKind) (operationID : String) (id : UInt8)
    (payout : Payout) : Settlement :=
  ({ kind, operationID, previousSequence := n.toNat, nextSequence := n.toNat + 1
     previousRoot := if n = 0 then newState.root else sampleRoot n
     nextRoot := sampleRoot (n + 1) } : PendingAnchor).settlement
    samplePlatform.keccak256 (Bytes.Fixed.ofList 32 [id]) payout 1000

/-- The settlement is executed, and the extension confirms it as handler `pid`. -/
def sampleSettled (pid : Nat) (n : UInt8) (settlement : Settlement) : List Move :=
  [.execute (sampleTx 1 0) settlement,
    .receive (sampleAction (200 + n) .direct "ANCHOR_CONFIRMED" [n + 1])] ++ sampleAdvance pid 4

/-- What account 10 pays in, in the sample runs. -/
def sampleFunding (token : Address) : Funding where
  isBackstop := false
  account := sampleAddress 10
  token
  amount := 100
  nonce := 1

/-- Its deposit arrives, and the handler of message 1, number 0, commits it. -/
def depositCommitted (token : Address) : List Move :=
  [.transact (sampleTx 10 100) (.deposit token 100),
    .receive (sampleAction 1 .instruction "DEPOSIT"
      (depositMessage samplePlatform.keccak256 sampleSetup.config (sampleFunding token)))] ++
    sampleAdvance 0 1

/-- The checkpoint that message `id` signs for the deposit. -/
def depositCheckpoint (token : Address) (id : UInt8) (account : Address) : Settlement :=
  sampleSettlement 0 .deposit
    ((sampleFunding token).depositID samplePlatform.keccak256 sampleSetup.config).hex id
    (Payout.checkpoint account)

/-- The deposit, from its transaction to its confirmation by handler 1. -/
def depositSettled (token : Address) : List Move :=
  depositCommitted token ++ sampleAdvance 0 3 ++
    sampleSettled 1 0 (depositCheckpoint token 1 (sampleAddress 10))

/-- Account 10 pays USDT0 in and offers 50 of it, by handlers 0 to 3. -/
def mandateSettled : List Move :=
  depositSettled sampleSetup.config.usdt0 ++
    [.receive (sampleAction 2 .direct "SET_MANDATE" (sampleSigned 10 0 "SET_MANDATE" [50]))] ++
    sampleAdvance 2 6 ++
    sampleSettled 3 1 (sampleSettlement 1 .setMandate "m" 2
      (Payout.checkpoint (sampleAddress 10)))

/-! ### Inversion -/

section Inversion

variable {S : Setup} {w w' : World} {pid : Nat} {a : Answer}

theorem ofVault_eq_ok {α : Type} {x : Except VaultError α} {b : α} :
    ofVault x = .ok b ↔ x = .ok b := by
  cases x <;> simp [ofVault]

/-- An advanced handler made the request it was waiting with, and has its answer. -/
theorem advance_ok (h : w.advance S pid a = .ok w') :
    ∃ (started : Started) (r : Request) (k : Response r → Running),
      w.handlers[pid]? = some started ∧ w.lost ≤ pid ∧ started.process = .call r k ∧
        w' = { (w.respond S pid started a r).1 with
          handlers := (w.respond S pid started a r).1.handlers.set pid
            (started.answer r (w.respond S pid started a r).2
              (k (w.respond S pid started a r).2)) } := by
  unfold World.advance at h
  cases hget : w.handlers[pid]? with
  | none => rw [hget] at h; cases h
  | some started =>
      rw [hget] at h
      dsimp only at h
      by_cases hlost : pid < w.lost
      · rw [if_pos hlost] at h; cases h
      · rw [if_neg hlost] at h
        cases hp : started.process with
        | done reply => rw [hp] at h; cases h
        | call r k =>
            rw [hp] at h
            cases h
            exact ⟨started, r, k, rfl, Nat.le_of_not_lt hlost, hp, rfl⟩

theorem transact_ok {tx : Tx} {call : VaultCall} (h : w.step S (.transact tx call) = .ok w') :
    ∃ vault, call.apply S.platform.keccak256 S.config tx w.vault = .ok vault ∧
      w' = { w with vault } := by
  obtain ⟨vault, hv, hw⟩ := Outcome.bind_eq_ok.mp h
  cases hw
  exact ⟨vault, ofVault_eq_ok.mp hv, rfl⟩

theorem execute_ok {tx : Tx} {settlement : Settlement}
    (h : w.step S (.execute tx settlement) = .ok w') :
    settlement ∈ w.signed ∧ ∃ vault,
      w.vault.executeSettlement S.config tx true settlement = .ok vault ∧
        w' = { w with vault } := by
  obtain ⟨vault, hv, hw⟩ := Outcome.bind_eq_ok.mp h
  cases hw
  replace hv := ofVault_eq_ok.mp hv
  have hauth := (executeSettlement_ok hv).1
  rw [hauth] at hv
  simp only [Bool.and_eq_true, decide_eq_true_eq] at hauth
  exact ⟨hauth.2, vault, hv, rfl⟩

end Inversion

end QuietLine
