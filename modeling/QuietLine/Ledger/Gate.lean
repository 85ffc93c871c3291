/-
The engine as its callers share it (`Engine`, `NewEngine`, `mutate`, `ConfirmAnchor`).

Every section under `e.mu` is one step.  A call of `mutate` that finds an anchor
pending takes the channel `anchorCleared` with it and waits without the lock; it
comes back when that channel is closed, or gives up when its timer fires, which may
be at any moment.  Channels are numbered as they are made, and closing a channel
twice is a panic.
-/
import QuietLine.Ledger.Store

namespace QuietLine

open Outcome

/-! ### Calls of `mutate` -/

/-- Where a call of `mutate` is. -/
inductive Phase where
  /-- It is about to take the lock. -/
  | entering
  /-- It has released the lock and waits for the channel. -/
  | waiting (channel : Nat)
  | returned (result : Except LedgerError Unit)

/-- A call of a mutating method. -/
structure Caller where
  op : Operation
  requestedAt : Int
  phase : Phase

structure Engine (Text Sealed : Type) where
  store : Store Text Sealed
  state : State
  anchorCleared : Nat
  /-- The number of channels made so far. -/
  channels : Nat
  /-- The channels closed so far. -/
  closed : List Nat
  callers : List Caller := []
  /-- The calls that committed, in their order. -/
  committed : List Nat := []

inductive EngineFault where
  /-- The call is not at this point. -/
  | notReady
  /-- `close` of a closed channel. -/
  | closeOfClosedChannel
  deriving DecidableEq, Repr

section Methods

variable {Text Sealed : Type} (C : Codec Text Sealed) (host : Host)

/-- `NewEngine`, on the state it has loaded. -/
def Engine.start (store : Store Text Sealed) (state : State) : Engine Text Sealed :=
  { store, state, anchorCleared := 0, channels := 1,
    closed := if state.pendingAnchor = none then [0] else [] }

def newEngine (store : Store Text Sealed) : Except LedgerError (Engine Text Sealed) := do
  let state ← store.load C
  return Engine.start store state

variable (e : Engine Text Sealed)

/-- The call `i` goes on to `phase`. -/
def Engine.setPhase (i : Nat) (c : Caller) (phase : Phase) : Engine Text Sealed :=
  { e with callers := e.callers.set i { c with phase } }

/-- A method is called; its own checks come before `mutate`. -/
def Engine.call (op : Operation) (ctx : Context) : Engine Text Sealed :=
  let phase := match op.validate ctx with
    | .ok () => .entering
    | .error cause => .returned (.error cause)
  { e with callers := e.callers ++ [{ op, requestedAt := ctx.requestedAt, phase }] }

/-- `mutate` under the lock, no anchor pending: the store is written before the memory. -/
def Engine.commit (i : Nat) (c : Caller) (ctx : Context) (write : Write) : Engine Text Sealed :=
  let written := do
    let next ← c.op.body .wrapping host { ctx with requestedAt := c.requestedAt } e.state
    let next := anchored host c.op.kind c.op.operationID e.state next
    -- the next channel is made here; one that is not stored is never seen
    let store ← withContext "persisting mutation" (e.store.commit C write next c.op.kind)
    return (next, store)
  match written with
  | .error cause => e.setPhase i c (.returned (.error cause))
  | .ok (next, store) =>
      { e.setPhase i c (.returned (.ok ())) with
        store, state := next, anchorCleared := e.channels, channels := e.channels + 1
        committed := e.committed ++ [i] }

/-- `mutate` takes the lock. -/
def Engine.lock (i : Nat) (ctx : Context) (write : Write) :
    Except EngineFault (Engine Text Sealed) :=
  match e.callers[i]? with
  | some c =>
      match c.phase with
      | .entering =>
          if e.state.pendingAnchor = none then
            .ok (e.commit C host i c ctx write)
          else
            .ok (e.setPhase i c (.waiting e.anchorCleared))
      | _ => .error .notReady
  | none => .error .notReady

/-- The channel a call waits for is closed. -/
def Engine.wake (i : Nat) : Except EngineFault (Engine Text Sealed) :=
  match e.callers[i]? with
  | some c =>
      match c.phase with
      | .waiting channel =>
          if channel ∈ e.closed then .ok (e.setPhase i c .entering) else .error .notReady
      | _ => .error .notReady
  | none => .error .notReady

/-- The time of a call is up. -/
def Engine.timeout (i : Nat) : Except EngineFault (Engine Text Sealed) :=
  match e.callers[i]? with
  | some c =>
      match c.phase with
      | .waiting _ => .ok (e.setPhase i c (.returned (.error .anchorPending)))
      | _ => .error .notReady
  | none => .error .notReady

def Engine.close (channel : Nat) : Except EngineFault (Engine Text Sealed) := do
  rejectIf (channel ∈ e.closed) .closeOfClosedChannel
  return { e with closed := channel :: e.closed }

/-- `ConfirmAnchor`, with what it answers. -/
def Engine.confirmAnchor (sequence : Nat) (root : String) (write : Write) :
    Except EngineFault (Engine Text Sealed × Except LedgerError Unit) :=
  match e.state.pendingAnchor with
  | none =>
      if e.state.sequence = sequence ∧ equalFold e.state.root root then
        .ok (e, .ok ())
      else
        .ok (e, .error .noAnchorPending)
  | some pending =>
      if pending.nextSequence ≠ sequence ∨ ¬ equalFold pending.nextRoot root then
        .ok (e, .error .anchorMismatch)
      else
        let next := { e.state with pendingAnchor := none }
        match withContext "persisting anchor confirmation" (e.store.saveState C write next) with
        | .error cause => .ok (e, .error cause)
        | .ok store => do
            let e ← { e with store, state := next }.close e.anchorCleared
            return (e, .ok ())

end Methods

/-! ### The engine as a machine -/

/-- A step of one of the engine's callers. -/
inductive EngineMove where
  | call (op : Operation) (ctx : Context)
  | lock (i : Nat) (ctx : Context) (write : Write)
  | wake (i : Nat)
  | timeout (i : Nat)
  | confirm (sequence : Nat) (root : String) (write : Write)

def Engine.step {Text Sealed : Type} (C : Codec Text Sealed) (host : Host)
    (e : Engine Text Sealed) : EngineMove → Except EngineFault (Engine Text Sealed)
  | .call op ctx => .ok (e.call op ctx)
  | .lock i ctx write => e.lock C host i ctx write
  | .wake i => e.wake i
  | .timeout i => e.timeout i
  | .confirm sequence root write => (e.confirmAnchor C sequence root write).map Prod.fst

/-- The engine after a list of moves, impossible ones left out. -/
def Engine.after {Text Sealed : Type} (C : Codec Text Sealed) (host : Host)
    (e : Engine Text Sealed) (moves : List EngineMove) : Engine Text Sealed :=
  Machine.run (Engine.step C host) e moves

/-! ### The process that holds it -/

/-- A step of an engine that may be restarted: a crash leaves the store, which is what it was
before the transaction that was under way, or after it. -/
inductive ProcessMove where
  | serve (move : EngineMove)
  | restart

inductive ProcessFault where
  | engine (fault : EngineFault)
  /-- The process does not start. -/
  | load (cause : LedgerError)

def Engine.live {Text Sealed : Type} (C : Codec Text Sealed) (host : Host)
    (e : Engine Text Sealed) : ProcessMove → Except ProcessFault (Engine Text Sealed)
  | .serve move => (e.step C host move).mapError .engine
  | .restart => (newEngine C e.store).mapError .load

/-- The engine on a new store after a list of moves, impossible ones left out. -/
def engineAfter {Text Sealed : Type} (C : Codec Text Sealed) (host : Host)
    (moves : List ProcessMove) : Engine Text Sealed :=
  Machine.run (Engine.live C host) (Engine.start {} newState) moves

end QuietLine
