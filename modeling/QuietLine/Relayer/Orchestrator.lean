/-
The orchestrator (`relayer/src/orchestrator.ts`), and of its two clients what it
calls (`relayer/src/fcc.ts`, `relayer/src/chain.ts`).

`process` is a program: it updates its job in the store, which answers at once, and
it awaits FCC and the chain.  JavaScript runs one turn at a time, from the answer of
an awaited call to the next await, and what else is asked of the orchestrator comes
in between two turns.  An error is its message.

Where the relayer stops, it may be in the middle of a turn, between two writes to its
store.  What the store holds then is a definition of its own (`Orchestrator.cut`).
-/
import Mathlib.Data.List.Infix
import QuietLine.Library.Machine
import QuietLine.Library.Process
import QuietLine.Relayer.Indexer

namespace QuietLine.Relayer

open Process

/-! ### What is asked of FCC, the chain and the store -/

inductive SubmissionTag where
  | submit
  | threshold
  deriving DecidableEq, Repr

/-- What `depositForRequest` finds. -/
structure FoundDeposit where
  depositID : Hash
  account : Address
  token : Address
  amount : Nat
  deriving DecidableEq

/-- What `submitJson` is given. -/
inductive JsonPayload where
  | recoverAnchor
  | recoverDeposit (deposit : FoundDeposit)
  | anchorConfirmed (sequence : Nat) (root : Hash)
  deriving DecidableEq

/-- The message of a direct submission. -/
inductive Message where
  | ciphertext (bytes : List UInt8)
  | json (payload : JsonPayload)
  deriving DecidableEq

/-- The `result` of an `ActionResponse`; data that does not decode is the error of `decode`. -/
structure ActionResult where
  status : Nat
  log : String
  data : Option (Except String Reply)
  deriving DecidableEq

inductive Ask where
  /-- `updateJob`. -/
  | update (id : String) (patch : JobPatch)
  /-- `POST /direct`. -/
  | direct (command : String) (message : Message)
  /-- `poll`, to its end. -/
  | poll (actionID : Option Hash) (tag : SubmissionTag)
  | usedSettlementID (settlementID : Hash)
  /-- The transactions of its `SettlementExecuted` events. -/
  | settlementLogs (settlementID : Hash)
  /-- `writeContract` and `waitForTransactionReceipt`, the receipt being no success an error. -/
  | executeSettlement (anchor : Settlement)
  /-- Which of two concurrent chain reads is served first. -/
  | sequenceFirst
  | stateSequence
  | stateRoot
  /-- The `DepositSubmitted` events of the block. -/
  | depositLogs (blockNumber : Nat)
  deriving DecidableEq

/-- What an answer carries that is no error. -/
abbrev Ask.Value : Ask → Type
  | .update .. => Job
  | .direct .. => Hash
  | .poll .. => ActionResult
  | .usedSettlementID _ => Bool
  | .settlementLogs _ => List Hash
  | .executeSettlement _ => Hash
  | .sequenceFirst => Bool
  | .stateSequence => Nat
  | .stateRoot => Hash
  | .depositLogs _ => List VaultLog

abbrev Answered (r : Ask) : Type := Except String r.Value

instance : (r : Ask) → DecidableEq r.Value
  | .update .. => inferInstanceAs (DecidableEq Job)
  | .direct .. | .executeSettlement _ | .stateRoot => inferInstanceAs (DecidableEq Hash)
  | .poll .. => inferInstanceAs (DecidableEq ActionResult)
  | .usedSettlementID _ | .sequenceFirst => inferInstanceAs (DecidableEq Bool)
  | .settlementLogs _ => inferInstanceAs (DecidableEq (List Hash))
  | .stateSequence => inferInstanceAs (DecidableEq Nat)
  | .depositLogs _ => inferInstanceAs (DecidableEq (List VaultLog))

/-- A program of the relayer. -/
abbrev Relay := Process.Fallible String Ask Answered

/-- A call of `process` that has been started. -/
abbrev Processing := Process Ask Answered (Except String Unit)

namespace Relay

variable {α : Type}

/-- Ask, and throw what is answered as an error. -/
def ask (r : Ask) : Relay r.Value := do
  let answer ← Fallible.perform r
  Fallible.ofExcept answer

end Relay

open Relay

/-! ### The clients -/

/-- `text.includes(part)`. -/
def includes (text part : String) : Bool := decide (part.toList <:+: text.toList)

/-- `text || fallback`. -/
def orText (text fallback : String) : String := if text = "" then fallback else text

def submitCiphertext (command : String) (ciphertext : List UInt8) : Relay Hash :=
  ask (.direct command (.ciphertext ciphertext))

def submitJson (command : String) (payload : JsonPayload) : Relay Hash :=
  ask (.direct command (.json payload))

def poll (actionID : Option Hash) (tag : SubmissionTag) : Relay ActionResult :=
  ask (.poll actionID tag)

/-- Throw unless the action succeeded; `what` names the action in the error. -/
def requireSuccess (what : String) (result : ActionResult) : Relay Unit :=
  Fallible.ofExcept (Outcome.rejectIf (result.status ≠ 1)
    (orText result.log (what ++ " returned status " ++ toString result.status)))

/-- `decode`. -/
def decode (data : Option (Except String Reply)) : Relay Reply :=
  Fallible.ofExcept (data.getD (.error "FCC result did not include data"))

/-- `data ? decode(data) : undefined`. -/
def decodeAny (data : Option (Except String Reply)) : Relay (Option Reply) :=
  match data with
  | none => return none
  | some data => do
      let reply ← Fallible.ofExcept data
      return some reply

def settlementTransaction (settlementID : Hash) : Relay (Option Hash) := do
  let used ← ask (.usedSettlementID settlementID)
  if used then do
    let logs ← ask (.settlementLogs settlementID)
    match logs.getLast? with
    | some hash => return some hash
    | none =>
        throw ("settlement " ++ settlementID.hex ++ " is used but its event was not found")
  else
    return none

/-- The `catch` of `execute`. -/
def executedAnyway (anchor : Settlement) (error : String) : Relay Hash := do
  let recovered ← settlementTransaction anchor.settlementID
  match recovered with
  | some hash => return hash
  | none => throw error

def execute (anchor : Settlement) : Relay Hash := do
  let existing ← settlementTransaction anchor.settlementID
  match existing with
  | some hash => return hash
  | none => tryCatch (ask (.executeSettlement anchor)) (executedAnyway anchor)

def anchorState : Relay (Nat × Hash) := do
  let sequenceFirst ← ask .sequenceFirst
  if sequenceFirst then do
    let sequence ← ask .stateSequence
    let root ← ask .stateRoot
    return (sequence, root)
  else do
    let root ← ask .stateRoot
    let sequence ← ask .stateSequence
    return (sequence, root)

/-- What a log tells of the deposit that its request is for. -/
def VaultLog.depositFor (requestID : Hash) : VaultLog → Option FoundDeposit
  | depositSubmitted depositID account token amount request =>
      if request = requestID then some { depositID, account, token, amount } else none
  | confidentialRequestSubmitted .. => none

def depositForRequest (requestID : Hash) (blockNumber : Nat) : Relay FoundDeposit := do
  let logs ← ask (.depositLogs blockNumber)
  match logs.findSome? (VaultLog.depositFor requestID) with
  | some deposit => return deposit
  | none => throw ("deposit record for request " ++ requestID.hex ++ " was not found on-chain")

/-! ### Processing a job -/

def update (id : String) (patch : JobPatch) : Relay Job := ask (.update id patch)

/-- `findAnchor`. -/
def findAnchor : Option Reply → Option Settlement
  | some (.mutation anchor) => some anchor
  | some (.anchor settlement) => some settlement
  | some (.secure anchor _) => anchor
  | _ => none

def isPendingAnchorError (error : String) : Bool :=
  includes error "previous confidential mutation is awaiting on-chain anchor"

def confirmAnchor (anchor : Settlement) : Relay Unit := do
  let confirmationID ← submitJson "ANCHOR_CONFIRMED"
    (.anchorConfirmed anchor.nextSequence anchor.nextRoot)
  let confirmation ← poll (some confirmationID) .submit
  requireSuccess "anchor confirmation" confirmation

def settleAnchor (anchor : Settlement) (existingTxHash : Option Hash) : Relay Hash := do
  let txHash ← match existingTxHash with
    | some txHash => pure txHash
    | none => execute anchor
  confirmAnchor anchor
  return txHash

/-- The settlement of a decoded `Anchor`; reading a field of one that is missing throws. -/
def anchorSettlement : Reply → Except String Settlement
  | .anchor settlement => .ok settlement
  | _ => .error "Cannot read properties of undefined (reading 'previousSequence')"

/-- What `recoverPendingAnchor` does with the chain's state. -/
def settleRecovered (settlement : Settlement) (state : Nat × Hash) : Relay Unit := do
  let chainAtPrevious : Bool :=
    state.1 = settlement.previousSequence ∧ state.2 = settlement.previousRoot
  let chainAtNext : Bool := state.1 = settlement.nextSequence ∧ state.2 = settlement.nextRoot
  Fallible.ofExcept (Outcome.rejectIf (chainAtPrevious = false ∧ chainAtNext = false)
    "vault anchor diverges from the recoverable FCC checkpoint")
  if chainAtPrevious then do
    let _ ← execute settlement
    confirmAnchor settlement
  else
    confirmAnchor settlement

def recoverPendingAnchor : Relay Unit := do
  let recoveryID ← submitJson "RECOVER_ANCHOR" .recoverAnchor
  let recovery ← poll (some recoveryID) .submit
  requireSuccess "anchor recovery" recovery
  let anchor ← decode recovery.data
  let state ← anchorState
  let settlement ← Fallible.ofExcept (anchorSettlement anchor)
  settleRecovered settlement state

def recoverPendingAnchorAllowingAlreadyCleared : Relay Unit :=
  tryCatch recoverPendingAnchor fun error =>
    if includes error "no confidential anchor is pending" then return () else throw error

/-- What `recoverDeposit` returns: the response, and the transaction if there was one. -/
abbrev RecoveredDeposit := Option Reply × Option Hash

def recoverDeposit (payload : ChainPayload) : Relay RecoveredDeposit := do
  let deposit ← depositForRequest payload.requestID payload.blockNumber
  let recoveryID ← submitJson "RECOVER_DEPOSIT" (.recoverDeposit deposit)
  let recovery ← poll (some recoveryID) .submit
  requireSuccess "deposit recovery" recovery
  let response ← decodeAny recovery.data
  match findAnchor response with
  | none => return (response, none)
  | some anchor => do
      let txHash ← settleAnchor anchor none
      return (response, some txHash)

/-- The `if (!job.actionId)` of `process`. -/
def submit (job : Job) : Relay Job :=
  match job.actionID, job.payload with
  | some _, _ => return job
  | none, .chain payload =>
      update job.id { actionID := some (some payload.requestID), status := some .submitted }
  | none, .direct payload => do
      let actionID ← submitCiphertext payload.command payload.ciphertext
      update job.id { actionID := some (some actionID), status := some .submitted }

def Payload.tag : Payload → SubmissionTag
  | direct _ => .submit
  | chain _ => .threshold

/-- The `try` of `process`, from its first update on. -/
def attemptJob (job : Job) : Relay Unit := do
  let job ← submit job
  let job ← update job.id { status := some .processing }
  let action ← poll job.actionID job.payload.tag
  requireSuccess "FCC action" action
  let response ← decodeAny action.data
  let job ← update job.id { response := some response }
  match findAnchor response with
  | none => do
      let _ ← update job.id { status := some .confirmed }
      return ()
  | some anchor => do
      let job ← update job.id { status := some .settling }
      let txHash ← settleAnchor anchor job.txHash
      let job ← update job.id { txHash := some (some txHash), status := some .confirming }
      let _ ← update job.id { status := some .confirmed }
      return ()

def fail (id error : String) : Relay Unit := do
  let _ ← update id { status := some .failed, error := some (some error) }
  return ()

/-- The `try` inside the `catch`. -/
def recoverJob (id : String) (payload : Payload) : Relay Unit := do
  recoverPendingAnchorAllowingAlreadyCleared
  match payload with
  | .chain chain =>
      if chain.command = "DEPOSIT" then do
        let recovery ← recoverDeposit chain
        let _ ← update id
          { status := some .confirmed, response := some recovery.1
            txHash := recovery.2.map some }
        return ()
      else
        fail id "A prior confidential checkpoint was recovered. Retry this request."
  | .direct _ => fail id "A prior confidential checkpoint was recovered. Retry this request."

/-- The `catch` of `process`; there is no payload before the first update. -/
def settleError (id : String) (payload : Option Payload) (error : String) : Relay Unit :=
  match payload with
  | none => fail id error
  | some payload =>
      if isPendingAnchorError error then
        tryCatch (recoverJob id payload) fun recoveryError =>
          fail id (error ++ "; anchor recovery failed: " ++ recoveryError)
      else
        fail id error

/-- `process`. -/
def process (initial : Job) : Relay Unit := do
  let begun ← Fallible.perform
    (Ask.update initial.id { attempts := some (initial.attempts + 1), error := some none })
  match begun with
  | .ok job => tryCatch (attemptJob job) (settleError job.id (some job.payload))
  | .error error => settleError initial.id none error

/-! ### Draining the queue -/

/-- A call of `drain` that has not returned: the job it processes, and where `process` stands. -/
structure Drain where
  job : String
  process : Processing

structure Orchestrator where
  store : Store := {}
  running : Bool := false
  wakeRequested : Bool := false
  drains : List Drain := []
  /-- For the proofs alone: each call of `process` that has returned, with the status it left its
  job in. -/
  returned : List (String × Option JobStatus) := []

/-- `process` in one turn: the store answers until something is awaited. -/
def turn (now : Nat) : Store → Processing → Store × Processing
  | s, .done r => (s, .done r)
  | s, .call (.update id patch) k =>
      match s.updateJob id patch now with
      | .ok (job, s) => turn now s (k (.ok job))
      | .error cause => turn now s (k (.error cause.message))
  | s, p => (s, p)

/-- The store when the relayer stops in the turn, after so many of its writes. -/
def turnCut (now : Nat) : Nat → Store → Processing → Store
  | 0, s, _ => s
  | writes + 1, s, .call (.update id patch) k =>
      match s.updateJob id patch now with
      | .ok (job, s) => turnCut now writes s (k (.ok job))
      | .error cause => turnCut now writes s (k (.error cause.message))
  | _ + 1, s, _ => s

/-- The status a job has in the store. -/
def Store.statusOf (s : Store) (id : String) : Option JobStatus := (s.getJob id).map Job.status

namespace Orchestrator

variable (now tie : Nat) (o : Orchestrator)

/-- A call of `process` goes on, in this turn as far as it can. -/
def proceed (job : String) (p : Processing) : Orchestrator :=
  let after := turn now o.store p
  { o with
    store := after.1
    drains := o.drains ++ [{ job, process := after.2 }]
    returned := o.returned ++
      match after.2 with
      | .done _ => [(job, after.1.statusOf job)]
      | .call .. => [] }

/-- The inner loop of `drain`; when no job is left, `exhausted` is how the outer loop goes on. -/
def nextJob (exhausted : Orchestrator) : Orchestrator :=
  match o.store.nextRunnableJob tie with
  | some job => o.proceed now job.id (process job).run
  | none => exhausted

/-- A round of the outer loop.  Where it finds no job the loop is over, since the request was
cleared in the same turn. -/
def round : Orchestrator :=
  { o with wakeRequested := false }.nextJob now tie { o with wakeRequested := false, running := false }

/-- `drain`, called while none is running. -/
def drain : Orchestrator := { o with running := true }.round now tie

def wake : Orchestrator :=
  let o := { o with wakeRequested := true }
  if o.running then o else o.drain now tie

/-- What `drain` does when `process` has returned. -/
def resume : Orchestrator :=
  o.nextJob now tie (if o.wakeRequested then o.round now tie else { o with running := false })

end Orchestrator

/-! ### Turns -/

/-- What a turn begins with. -/
inductive Entry where
  | enqueueDirect (uuid account command : String) (ciphertext : List UInt8)
  | enqueueChain (uuid : String) (event : ChainInstruction)
  | retry (id : String)
  | wake
  /-- What a drain awaits is answered. -/
  | answered (i : Nat) (answer : (r : Ask) → Answered r)
  /-- A drain goes on after the `process` it awaited. -/
  | returned (i : Nat)

structure Turn where
  /-- `Date.now()`; nothing depends on the times within a turn. -/
  now : Nat
  /-- Which of several oldest jobs the store picks. -/
  tie : Nat := 0
  entry : Entry

inductive NoTurn where
  | store (cause : StoreError)
  | noSuchDrain
  | notAwaited
  deriving DecidableEq, Repr

namespace Orchestrator

variable (now tie : Nat) (o : Orchestrator)

/-- What the store's methods throw, `enqueueDirect`, `enqueueChain` and `retry` throw. -/
def woken : Except StoreError (Job × Store) → Except NoTurn Orchestrator
  | .ok (_, store) => .ok ({ o with store }.wake now tie)
  | .error cause => .error (.store cause)

def leave (i : Nat) : Orchestrator := { o with drains := o.drains.eraseIdx i }

/-- The call that the drain awaits is answered. -/
def answered (i : Nat) (answer : (r : Ask) → Answered r) : Except NoTurn Orchestrator :=
  match o.drains[i]? with
  | none => .error .noSuchDrain
  | some d =>
      match d.process with
      | .done _ => .error .notAwaited
      | .call r k => .ok ((o.leave i).proceed now d.job (k (answer r)))

/-- The drain goes on after `process`; what that throws, it throws. -/
def processed (i : Nat) : Except NoTurn Orchestrator :=
  match o.drains[i]? with
  | none => .error .noSuchDrain
  | some d =>
      match d.process with
      | .done (.ok _) => .ok ((o.leave i).resume now tie)
      | .done (.error _) => .ok { o.leave i with running := false }
      | .call .. => .error .notAwaited

def step (o : Orchestrator) (t : Turn) : Except NoTurn Orchestrator :=
  match t.entry with
  | .enqueueDirect uuid account command ciphertext =>
      o.woken t.now t.tie (o.store.enqueueDirect uuid t.now account command ciphertext)
  | .enqueueChain uuid event =>
      o.woken t.now t.tie (o.store.enqueueChain uuid t.now event.account event.command event.requestID
        event.blockNumber event.externalKey)
  | .retry id => o.woken t.now t.tie (o.store.resetForRetry id t.now)
  | .wake => .ok (o.wake t.now t.tie)
  | .answered i answer => o.answered t.now i answer
  | .returned i => o.processed t.now t.tie i

/-- The orchestrator that is started over a store, after these turns. -/
def after (store : Store) (turns : List Turn) : Orchestrator :=
  Machine.run step { store } turns

/-! ### A turn that is cut short -/

/-- The relayer stops in the first turn of the next job. -/
def nextCut (writes : Nat) : Store :=
  match o.store.nextRunnableJob tie with
  | some job => turnCut now writes o.store (process job).run
  | none => o.store

/-- It stops after the store has been written to, or before. -/
def wokenCut (writes : Nat) : Except StoreError (Job × Store) → Store
  | .error _ => o.store
  | .ok (_, store) =>
      match writes with
      | 0 => o.store
      | writes + 1 => if o.running then store else { o with store }.nextCut now tie writes

/-- What the store holds when the relayer stops in the turn, after so many of its writes. -/
def cut (writes : Nat) (o : Orchestrator) (t : Turn) : Store :=
  match t.entry with
  | .enqueueDirect uuid account command ciphertext =>
      o.wokenCut t.now t.tie writes (o.store.enqueueDirect uuid t.now account command ciphertext)
  | .enqueueChain uuid event =>
      o.wokenCut t.now t.tie writes (o.store.enqueueChain uuid t.now event.account event.command
        event.requestID event.blockNumber event.externalKey)
  | .retry id => o.wokenCut t.now t.tie writes (o.store.resetForRetry id t.now)
  | .wake => if o.running then o.store else o.nextCut t.now t.tie writes
  | .answered i answer =>
      match o.drains[i]?.map Drain.process with
      | some (.call r k) => turnCut t.now writes o.store (k (answer r))
      | _ => o.store
  | .returned i =>
      match o.drains[i]?.map Drain.process with
      | some (.done (.ok _)) => o.nextCut t.now t.tie writes
      | _ => o.store

/-! ### Inversion -/

section Inversion

variable {now tie : Nat} {o o' : Orchestrator} {i : Nat}

/-- An answer goes to the call that awaits it. -/
theorem answered_ok {answer : (r : Ask) → Answered r} (h : o.answered now i answer = .ok o') :
    ∃ d r k, o.drains[i]? = some d ∧ d.process = .call r k ∧
      o' = (o.leave i).proceed now d.job (k (answer r)) := by
  unfold answered at h
  cases hd : o.drains[i]? with
  | none => rw [hd] at h; cases h
  | some d =>
      rw [hd] at h
      dsimp only at h
      cases hp : d.process with
      | done r => rw [hp] at h; cases h
      | call r k => rw [hp] at h; cases h; exact ⟨d, r, k, rfl, hp, rfl⟩

/-- A drain goes on after a call that has returned. -/
theorem processed_ok (h : o.processed now tie i = .ok o') :
    ∃ d r, o.drains[i]? = some d ∧ d.process = .done r ∧
      ((r = .ok () ∧ o' = (o.leave i).resume now tie) ∨
        ∃ e, r = .error e ∧ o' = { o.leave i with running := false }) := by
  unfold processed at h
  cases hd : o.drains[i]? with
  | none => rw [hd] at h; cases h
  | some d =>
      rw [hd] at h
      dsimp only at h
      cases hp : d.process with
      | call r k => rw [hp] at h; cases h
      | done r =>
          rw [hp] at h
          cases r with
          | ok _ => cases h; exact ⟨d, _, rfl, hp, Or.inl ⟨rfl, rfl⟩⟩
          | error e => cases h; exact ⟨d, _, rfl, hp, Or.inr ⟨e, rfl, rfl⟩⟩

/-- A turn is a wake-up over some store, or it goes on with a drain. -/
theorem step_cases {t : Turn} (h : o.step t = .ok o') :
    (∃ store, o' = { o with store }.wake t.now t.tie) ∨
      (∃ i answer, t.entry = .answered i answer ∧ o.answered t.now i answer = .ok o') ∨
      ∃ i, t.entry = .returned i ∧ o.processed t.now t.tie i = .ok o' := by
  have hwoken : ∀ {x : Except StoreError (Job × Store)}, o.woken t.now t.tie x = .ok o' →
      ∃ store, o' = { o with store }.wake t.now t.tie := by
    intro x hx
    cases x with
    | error cause => cases hx
    | ok result => cases hx; exact ⟨result.2, rfl⟩
  unfold step at h
  cases ht : t.entry with
  | enqueueDirect uuid account command ciphertext =>
      simp only [ht] at h; exact Or.inl (hwoken h)
  | enqueueChain uuid event => simp only [ht] at h; exact Or.inl (hwoken h)
  | retry id => simp only [ht] at h; exact Or.inl (hwoken h)
  | wake => simp only [ht] at h; cases h; exact Or.inl ⟨o.store, rfl⟩
  | answered i answer => simp only [ht] at h; exact Or.inr (Or.inl ⟨i, answer, rfl, h⟩)
  | returned i => simp only [ht] at h; exact Or.inr (Or.inr ⟨i, rfl, h⟩)

end Inversion

end Orchestrator

end QuietLine.Relayer
