/-
The deployment: the system with the relayer in front of it.

FCC stands between the two.  It accepts a direct submission under an id of its own,
hands the extension the action once, and keeps what the extension answered.  A call
that the relayer awaits has its effect in one move and is answered in a later one, so
that it can fail, or the relayer crash, after the effect.  The chain and FCC have
other users: every move of the system may come from them.
-/
import QuietLine.Relayer.Orchestrator
import QuietLine.System.Model

namespace QuietLine

open Relayer

/-- The parts of a deployment that are not its state. -/
structure Site where
  setup : Setup
  /-- `JSON.stringify`. -/
  json : JsonPayload → List UInt8
  /-- The message of the action that FCC makes of a direct submission. -/
  wrap : DirectInstruction → List UInt8
  /-- The text of an error that is not the extension's own. -/
  text : HandlerError → String
  /-- The logs of each block. -/
  logs : Nat → List VaultLog

/-! ### What FCC keeps -/

/-- The extension answers with an HTTP status, and FCC makes the result. -/
def HandlerError.isStatus : HandlerError → Bool
  | badRequest | unsupportedActionType | unsupportedOpType | unsupportedOpCommand => true
  | _ => false

/-- `buildResult`. -/
def Site.result (D : Site) : Except HandlerError Reply → ActionResult
  | .ok reply => { status := 1, log := "ok", data := some (.ok reply) }
  | .error e =>
      { status := 0
        log := if e.isStatus then D.text e else "error: " ++ e.message.getD (D.text e)
        data := none }

/-- What the extension answered to the action with this id. -/
def World.outcome (w : World) (id : Hash) : Option (Except HandlerError Reply) :=
  (w.handlers.find? fun h => h.action.id = id).bind fun h =>
    match h.process with
    | .done r => some r
    | .call .. => none

def Site.bytes (D : Site) : Message → List UInt8
  | .ciphertext bytes => bytes
  | .json payload => D.json payload

/-- The action of a direct submission. -/
def Site.action (D : Site) (id : Hash) (command : String) (message : Message) : Action where
  id
  actionType := .direct
  message := D.wrap
    { opType := toHash "CREDIT", opCommand := toHash command, message := D.bytes message }

/-- What the deployment takes from FCC and from the two JSON libraries.  JavaScript reads an integer
exactly below `2 ^ 53`. -/
structure Site.Lawful (D : Site) : Prop where
  wrap : ∀ di, D.setup.platform.directInstruction (D.wrap di) = some di
  anchorConfirmed : ∀ (sequence : Nat) (root : Hash), sequence < 2 ^ 53 →
    D.setup.platform.anchorConfirmedPayload (D.json (.anchorConfirmed sequence root)) =
      some { sequence := UInt64.ofNat sequence, root := root.hex }

/-! ### State and moves -/

structure Deployment where
  world : World := {}
  relayer : Orchestrator := {}
  /-- The id of the awaited submission, once FCC has accepted it. -/
  accepted : Option Hash := none

/-- What an answer depends on besides the system. -/
structure Served where
  sequenceFirst : Bool := true
  /-- The transaction that executed the settlement. -/
  txHash : Hash := Hash.zero

inductive DeploymentMove where
  | system (move : Move)
  /-- A turn of the orchestrator that nothing awaited begins. -/
  | turn (t : Turn)
  /-- FCC accepts the submission that the drain awaits. -/
  | accept (i : Nat) (id : Hash)
  /-- What the drain awaits is answered. -/
  | serve (i : Nat) (now : Nat) (served : Served)
  /-- What the drain awaits fails. -/
  | fail (i : Nat) (now : Nat) (error : String)
  /-- The relayer stops and is started again. -/
  | crash
  /-- It stops in the turn that the move would begin, after so many writes to its store. -/
  | torn (writes : Nat) (move : DeploymentMove)

inductive Blocked where
  | system (cause : Refusal)
  | relayer (cause : NoTurn)
  | noSubmission
  | idTaken
  | noAnswer

def ofSystem {α : Type} : Except Refusal α → Except Blocked α
  | .ok a => .ok a
  | .error cause => .error (.system cause)

def ofRelayer {α : Type} : Except NoTurn α → Except Blocked α
  | .ok a => .ok a
  | .error cause => .error (.relayer cause)

namespace Deployment

variable (D : Site) (d : Deployment)

/-- What the drain awaits. -/
def awaits (i : Nat) : Option Ask :=
  d.relayer.drains[i]?.bind fun drain =>
    match drain.process with
    | .call r _ => some r
    | .done _ => none

/-- The answer to a call, when there is one. -/
def answer (served : Served) : (r : Ask) → Option (Answered r)
  | .update .. => none
  | .direct .. => d.accepted.map .ok
  | .poll none _ => none
  | .poll (some id) _ => (d.world.outcome id).map fun r => .ok (D.result r)
  | .usedSettlementID id => some (.ok (d.world.vault.usedSettlementId.contains id))
  | .settlementLogs id =>
      some (.ok (if d.world.vault.usedSettlementId.contains id then [served.txHash] else []))
  | .executeSettlement anchor =>
      if d.world.vault.executed.contains anchor then some (.ok served.txHash) else none
  | .sequenceFirst => some (.ok served.sequenceFirst)
  | .stateSequence => some (.ok d.world.vault.stateSequence)
  | .stateRoot => some (.ok d.world.vault.stateRoot)
  | .depositLogs blockNumber => some (.ok ((D.logs blockNumber).filter VaultLog.isDeposit))

/-- The system makes its move. -/
def move (m : Move) : Except Blocked Deployment := do
  let world ← ofSystem (d.world.step D.setup m)
  return { d with world }

/-- The awaited call is over. -/
def answered (i now : Nat) (answer : (r : Ask) → Answered r) : Except Blocked Deployment := do
  let relayer ← ofRelayer (d.relayer.answered now i answer)
  return { d with relayer, accepted := none }

def accept (i : Nat) (id : Hash) : Except Blocked Deployment :=
  match d.awaits i, d.accepted with
  | some (.direct command message), none =>
      if d.world.handlers.any fun h => h.action.id = id then .error .idTaken
      else do
        let d ← d.move D (.receive (D.action id command message))
        return { d with accepted := some id }
  | _, _ => .error .noSubmission

def serve (i now : Nat) (served : Served) : Except Blocked Deployment :=
  match d.awaits i with
  | none => .error .noAnswer
  | some r =>
      if (d.answer D served r).isSome then
        d.answered i now fun r => (d.answer D served r).getD (.error "")
      else
        .error .noAnswer

/-- What the relayer's store holds when it stops in the turn, after so many of its writes. -/
def cut (writes : Nat) : DeploymentMove → Relayer.Store
  | .turn t =>
      match t.entry with
      | .answered .. => d.relayer.store
      | _ => d.relayer.cut writes t
  | .serve i now served =>
      match d.awaits i with
      | none => d.relayer.store
      | some r =>
          if (d.answer D served r).isSome then
            d.relayer.cut writes
              { now, entry := .answered i fun r => (d.answer D served r).getD (.error "") }
          else
            d.relayer.store
  | .fail i now error => d.relayer.cut writes { now, entry := .answered i fun _ => .error error }
  | _ => d.relayer.store

/-- The relayer is started over this store. -/
def restarted (store : Relayer.Store) : Deployment :=
  { d with relayer := { store }, accepted := none }

def step (d : Deployment) : DeploymentMove → Except Blocked Deployment
  | .system m => d.move D m
  | .turn t =>
      match t.entry with
      | .answered .. => .error .noAnswer
      | _ => do
          let relayer ← ofRelayer (d.relayer.step t)
          return { d with relayer }
  | .accept i id => d.accept D i id
  | .serve i now served => d.serve D i now served
  | .fail i now error => d.answered i now fun _ => .error error
  | .crash => .ok (d.restarted d.relayer.store)
  | .torn writes m => .ok (d.restarted (d.cut D writes m))

end Deployment

/-- The deployment after a list of moves, refused ones included. -/
def deploymentAfter (D : Site) (moves : List DeploymentMove) : Deployment :=
  Machine.run (Deployment.step D) {} moves

/-! ### When everyone answers -/

/-- The store, the chain and the TEE do what they are asked. -/
def Answer.Serves (a : Answer) : Prop :=
  a.stored = true ∧ a.reachable = true ∧ a.signing = .returned

def Move.Serves : Move → Prop
  | .advance _ a => a.Serves
  | _ => True

/-- No call fails, and the relayer does not stop. -/
def DeploymentMove.Answers : DeploymentMove → Prop
  | .system move => move.Serves
  | .fail .. => False
  | .crash => False
  | .torn .. => False
  | _ => True

/-- The calls that a move answers. -/
def DeploymentMove.answered : DeploymentMove → Nat
  | .serve .. => 1
  | _ => 0

/-- How many calls of the relayer are answered in a run from `d` on. -/
def Deployment.answers (D : Site) (d : Deployment) (moves : List DeploymentMove) : Nat :=
  Machine.weight (Deployment.step D) DeploymentMove.answered d moves

/-! ### Inversion -/

section Inversion

variable {D : Site} {d d' : Deployment} {i now : Nat}

theorem ofSystem_eq_ok {α : Type} {x : Except Refusal α} {a : α} (h : ofSystem x = .ok a) :
    x = .ok a := by
  cases x with
  | ok b => cases h; rfl
  | error e => cases h

theorem ofRelayer_eq_ok {α : Type} {x : Except NoTurn α} {a : α} (h : ofRelayer x = .ok a) :
    x = .ok a := by
  cases x with
  | ok b => cases h; rfl
  | error e => cases h

theorem move_ok {m : Move} (h : d.move D m = .ok d') :
    ∃ world, d.world.step D.setup m = .ok world ∧ d' = { d with world } := by
  obtain ⟨world, hworld, hd⟩ := Outcome.bind_eq_ok.mp h
  cases hd
  exact ⟨world, ofSystem_eq_ok hworld, rfl⟩

theorem answered_ok {answer : (r : Ask) → Answered r} (h : d.answered i now answer = .ok d') :
    ∃ relayer, d.relayer.answered now i answer = .ok relayer ∧
      d' = { d with relayer, accepted := none } := by
  obtain ⟨relayer, hrelayer, hd⟩ := Outcome.bind_eq_ok.mp h
  cases hd
  exact ⟨relayer, ofRelayer_eq_ok hrelayer, rfl⟩

/-- An accepted submission is the awaited one, under an id that no action has had. -/
theorem accept_ok {id : Hash} (h : d.accept D i id = .ok d') :
    ∃ command message world, d.awaits i = some (.direct command message) ∧ d.accepted = none ∧
      (∀ started ∈ d.world.handlers, started.action.id ≠ id) ∧
      d.world.step D.setup (.receive (D.action id command message)) = .ok world ∧
      d' = { d with world, accepted := some id } := by
  unfold Deployment.accept at h
  split at h
  · next command message hawaits hnone =>
    split at h
    · cases h
    · next hfresh =>
      obtain ⟨moved, hmoved, hd⟩ := Outcome.bind_eq_ok.mp h
      cases hd
      obtain ⟨world, hworld, rfl⟩ := move_ok hmoved
      refine ⟨command, message, world, hawaits, hnone, ?_, hworld, rfl⟩
      intro started hmem hid
      exact hfresh (List.any_eq_true.mpr ⟨started, hmem, decide_eq_true hid⟩)
  · cases h

theorem serve_ok {served : Served} (h : d.serve D i now served = .ok d') :
    ∃ r x relayer, d.awaits i = some r ∧ d.answer D served r = some x ∧
      d.relayer.answered now i (fun r => (d.answer D served r).getD (.error "")) = .ok relayer ∧
      d' = { d with relayer, accepted := none } := by
  unfold Deployment.serve at h
  cases hawaits : d.awaits i with
  | none => rw [hawaits] at h; cases h
  | some r =>
      rw [hawaits] at h
      cases hanswer : d.answer D served r with
      | none => simp only [hanswer] at h; cases h
      | some x =>
          simp only [hanswer, Option.isSome_some, if_true] at h
          obtain ⟨relayer, hrelayer, rfl⟩ := answered_ok h
          exact ⟨r, x, relayer, rfl, hanswer, hrelayer, rfl⟩

theorem turn_ok {t : Turn} (h : d.step D (.turn t) = .ok d') :
    (∀ i answer, t.entry ≠ .answered i answer) ∧
      ∃ relayer, d.relayer.step t = .ok relayer ∧ d' = { d with relayer } := by
  unfold Deployment.step at h
  cases ht : t.entry with
  | answered i answer => simp only [ht] at h; cases h
  | _ =>
      simp only [ht] at h
      obtain ⟨relayer, hr, hd⟩ := Outcome.bind_eq_ok.mp h
      cases hd
      exact ⟨by simp, relayer, ofRelayer_eq_ok hr, rfl⟩

end Inversion

/-! ### Sample runs -/

/-- Texts of fixed widths, one after the other. -/
def sampleJson : JsonPayload → List UInt8
  | .recoverAnchor => []
  | .recoverDeposit deposit =>
      deposit.depositID.toList ++ deposit.account.toList ++ deposit.token.toList ++
        Bytes.bigEndian 8 deposit.amount
  | .anchorConfirmed sequence root => Bytes.bigEndian 8 sequence ++ root.toList

/-- The sample setup, with such texts in its direct messages. -/
def sampleSite : Site where
  setup := { sampleSetup with
    platform := { samplePlatform with
      directInstruction bytes := some {
        opType := Bytes.Fixed.ofList 32 (bytes.take 32)
        opCommand := Bytes.Fixed.ofList 32 ((bytes.drop 32).take 32)
        message := (bytes.drop 32).drop 32 }
      anchorConfirmedPayload bytes := some {
        sequence := UInt64.ofNat (Bytes.ofBigEndian (bytes.take 8))
        root := Hash.hex (Bytes.Fixed.ofList 32 (bytes.drop 8)) } } }
  json := sampleJson
  wrap di := di.opType.toList ++ (di.opCommand.toList ++ di.message)
  text _ := ""
  logs _ := []

theorem sampleSite_lawful : sampleSite.Lawful where
  wrap := by
    rintro ⟨opType, opCommand, message⟩
    have htype : opType.toList.length = 32 := opType.toList_length
    have hcommand : opCommand.toList.length = 32 := opCommand.toList_length
    show some (DirectInstruction.mk (Bytes.Fixed.ofList 32 (List.take 32 _))
      (Bytes.Fixed.ofList 32 (List.take 32 (List.drop 32 _))) (List.drop 32 (List.drop 32 _))) = _
    simp only [sampleSite]
    rw [List.take_left' htype, List.drop_left' htype, List.take_left' hcommand,
      List.drop_left' hcommand, Bytes.Fixed.ofList_toList, Bytes.Fixed.ofList_toList]
  anchorConfirmed := by
    intro sequence root h
    have hlength : (Bytes.bigEndian 8 sequence).length = 8 := Bytes.length_bigEndian 8 sequence
    show some (AnchorConfirmedPayload.mk (UInt64.ofNat (Bytes.ofBigEndian (List.take 8 _)))
      (Hash.hex (Bytes.Fixed.ofList 32 (List.drop 8 _)))) = _
    simp only [sampleSite, sampleJson]
    rw [List.take_left' hlength, List.drop_left' hlength, Bytes.ofBigEndian_bigEndian,
      Bytes.Fixed.ofList_toList, Nat.mod_eq_of_lt (by omega)]

/-- Moves of the system alone. -/
def systemMoves (moves : List Move) : List DeploymentMove := moves.map .system

theorem run_systemMoves (D : Site) (d : Deployment) (moves : List Move) :
    Machine.run (Deployment.step D) d (systemMoves moves) =
      { d with world := Machine.run (World.step D.setup) d.world moves } := by
  induction moves generalizing d with
  | nil => rfl
  | cons m rest ih =>
      rw [systemMoves, List.map_cons, Machine.run_cons, Machine.run_cons]
      show Machine.run _ _ (systemMoves rest) = _
      rw [ih]
      cases hstep : d.world.step D.setup m with
      | ok world =>
          have hmove : Deployment.step D d (.system m) = .ok { d with world } := by
            simp [Deployment.step, Deployment.move, hstep, ofSystem]
          rw [Machine.next_ok hmove, Machine.next_ok hstep]
      | error cause =>
          have hmove : Deployment.step D d (.system m) = .error (.system cause) := by
            simp [Deployment.step, Deployment.move, hstep, ofSystem]
          rw [Machine.next_error hmove, Machine.next_error hstep]

/-- The relayer is answered. -/
def sampleServed : DeploymentMove := .serve 0 0 {}

/-- FCC accepts the awaited submission as message `id`, handler `pid` answers it with its `n`
requests, and the relayer has the answer. -/
def sampleSubmitted (id : UInt8) (pid n : Nat) : List DeploymentMove :=
  [.accept 0 (Bytes.Fixed.ofList 32 [id]), sampleServed] ++ systemMoves (sampleAdvance pid n) ++
    [sampleServed]

end QuietLine
