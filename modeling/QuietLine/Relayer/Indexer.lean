/-
The indexer (`relayer/src/indexer.ts`) and the logs it reads (`relayer/src/chain.ts`).

`poll` asks for the latest block and then goes from the stored cursor to it in windows
of thirty blocks: fetch the logs, enqueue a job for each, save the cursor.  Here every
call and every write of it is a step of its own.  Between two steps the orchestrator
and the server may write to the store, a timer may fire, a block may be mined, the call
may fail and the relayer may crash; that is more than JavaScript allows, where the
writes of one window run to the end.

The chain is the logs of every block that will ever be, and how far it has been mined.
-/
import QuietLine.Library.Machine
import QuietLine.Relayer.Store

namespace QuietLine.Relayer

open Outcome

/-! ### Logs -/

inductive VaultLog where
  | depositSubmitted (depositID : Hash) (account token : Address) (amount : Nat) (requestID : Hash)
  | confidentialRequestSubmitted (requestID command : Hash) (account : Address)
  deriving DecidableEq

structure ChainInstruction where
  externalKey : String
  account : String
  requestID : Hash
  command : String
  blockNumber : Nat
  deriving DecidableEq

/-- The vault's commands are ASCII texts. -/
def decodeBytes32 (value : Hash) : String :=
  String.ofList ((hashString value).map fun b => Char.ofNat b.toNat)

def VaultLog.isDeposit : VaultLog → Bool
  | depositSubmitted .. => true
  | confidentialRequestSubmitted .. => false

/-- The instruction `events` makes of a log. -/
def VaultLog.instruction (keccak : Keccak) (blockNumber : Nat) : VaultLog → ChainInstruction
  | depositSubmitted _ account _ _ requestID =>
      { externalKey := "chain:" ++ requestID.hex, account := account.hex keccak, requestID
        command := "DEPOSIT", blockNumber }
  | confidentialRequestSubmitted requestID command account =>
      { externalKey := "chain:" ++ requestID.hex, account := account.hex keccak, requestID
        command := decodeBytes32 command, blockNumber }

/-- What the indexer is pointed at. -/
structure Watch where
  keccak : Keccak
  /-- The logs of each block. -/
  logs : Nat → List VaultLog
  startBlock : Nat

namespace Watch

variable (W : Watch)

/-- `getLogs` for one of the two events, as instructions. -/
def getLogs (deposits : Bool) (fromBlock toBlock : Nat) : List ChainInstruction :=
  (List.range' fromBlock (toBlock + 1 - fromBlock)).flatMap fun block =>
    ((W.logs block).filter fun log => log.isDeposit = deposits).map
      (VaultLog.instruction W.keccak block)

def events (fromBlock toBlock : Nat) : List ChainInstruction :=
  (W.getLogs true fromBlock toBlock ++ W.getLogs false fromBlock toBlock).mergeSort
    fun a b => a.blockNumber ≤ b.blockNumber

end Watch

/-! ### Polling -/

/-- `CURSOR`. -/
def cursorName : String := "quiet_vault"

/-- `MAX_BLOCK_RANGE`. -/
def maxBlockRange : Nat := 30

/-- Where `poll` stands. -/
inductive Polling where
  | idle
  /-- It awaits the latest block. -/
  | blockNumber
  /-- It awaits the logs of the window at `cursor`. -/
  | events (latest cursor : Nat)
  /-- It has these of the window to `toBlock` still to enqueue. -/
  | enqueue (latest toBlock : Nat) (rest : List ChainInstruction)

structure Indexing where
  store : Store := {}
  polling : Polling := .idle
  /-- The latest block that has been mined. -/
  head : Nat := 0

/-- The condition of the loop. -/
def nextWindow (latest cursor : Nat) : Polling :=
  if cursor ≤ latest then .events latest cursor else .idle

/-- Where the window at `cursor` ends. -/
def windowEnd (latest cursor : Nat) : Nat :=
  if cursor + maxBlockRange - 1 < latest then cursor + maxBlockRange - 1 else latest

/-- A write to the store that is not the indexer's. -/
inductive JobWrite where
  | update (id : String) (patch : JobPatch) (now : Nat)
  | enqueueDirect (uuid : String) (now : Nat) (account command : String) (ciphertext : List UInt8)
  | retry (id : String) (now : Nat)

def JobWrite.apply (s : Store) : JobWrite → Except StoreError (Job × Store)
  | update id patch now => s.updateJob id patch now
  | enqueueDirect uuid now account command ciphertext =>
      s.enqueueDirect uuid now account command ciphertext
  | retry id now => s.resetForRetry id now

inductive IndexerMove where
  | mine
  /-- The interval is over, or the indexer starts. -/
  | timer
  /-- `blockNumber` answers. -/
  | blockNumber (latest : Nat)
  /-- `events` answers. -/
  | events
  /-- The next instruction is enqueued, with what `randomUUID` and `Date.now` answer. -/
  | enqueue (uuid : String) (now : Nat)
  | saveCursor
  /-- What is awaited or written throws. -/
  | fail
  /-- The relayer stops and is started again. -/
  | crash
  | elsewhere (write : JobWrite)

inductive Unmoved where
  | polling
  | notAwaited
  | notMined
  | store (cause : StoreError)

namespace Watch

variable (W : Watch)

/-- The stored cursor. -/
def cursor (s : Indexing) : Nat := s.store.getCursor cursorName W.startBlock

def step (s : Indexing) : IndexerMove → Except Unmoved Indexing
  | .mine => .ok { s with head := s.head + 1 }
  | .timer =>
      match s.polling with
      | .idle => .ok { s with polling := .blockNumber }
      | _ => .error .polling
  | .blockNumber latest =>
      match s.polling with
      | .blockNumber =>
          if latest ≤ s.head then
            .ok { s with polling := nextWindow latest (W.cursor s) }
          else
            .error .notMined
      | _ => .error .notAwaited
  | .events =>
      match s.polling with
      | .events latest cursor =>
          let toBlock := windowEnd latest cursor
          .ok { s with polling := .enqueue latest toBlock (W.events cursor toBlock) }
      | _ => .error .notAwaited
  | .enqueue uuid now =>
      match s.polling with
      | .enqueue latest toBlock (event :: rest) =>
          match s.store.enqueueChain uuid now event.account event.command event.requestID
              event.blockNumber event.externalKey with
          | .ok (_, store) => .ok { s with store, polling := .enqueue latest toBlock rest }
          | .error _ => .ok { s with polling := .idle }
      | _ => .error .notAwaited
  | .saveCursor =>
      match s.polling with
      | .enqueue latest toBlock [] =>
          .ok { s with
            store := s.store.setCursor cursorName (toBlock + 1)
            polling := nextWindow latest (toBlock + 1) }
      | _ => .error .notAwaited
  | .fail =>
      match s.polling with
      | .idle => .error .notAwaited
      | _ => .ok { s with polling := .idle }
  | .crash => .ok { s with polling := .idle }
  | .elsewhere write =>
      match write.apply s.store with
      | .ok (_, store) => .ok { s with store }
      | .error cause => .error (.store cause)

/-- The indexer after a list of moves, refused ones included. -/
def after (moves : List IndexerMove) : Indexing := Machine.run W.step {} moves

end Watch

end QuietLine.Relayer
