/-
The store of the engine (`store.go`).

The store keeps the sealed state under one key and a journal of one record a commit,
keyed by the sequence number.  `Commit` writes both in one transaction of the
database and `SaveState` the state alone; a transaction that fails writes nothing.
JSON, SHA-256 and the cipher are taken from their packages.
-/
import QuietLine.Ledger.Engine

namespace QuietLine

open Outcome

/-! ### Records -/

structure JournalRecord where
  sequence : Nat
  kind : String
  stateRoot : String
  previousHash : String
  hash : String := ""
  deriving DecidableEq, Repr

/-- `encoding/json`, `crypto/sha256` and AES-GCM under the state key, on the values the store uses
them on; `Text` is JSON text and `Sealed` what the cipher makes of it. -/
structure Codec (Text Sealed : Type) where
  marshalState : State → Text
  unmarshalState : Text → Option State
  marshalRecord : JournalRecord → Text
  unmarshalRecord : Text → Option JournalRecord
  sha256 : Text → Bytes.Fixed 32
  /-- `encrypt`, under the nonce it draws. -/
  encrypt : Bytes.Fixed 12 → Text → Sealed
  decrypt : Sealed → Option Text

/-- What the store relies on: text reads back, and so does what was sealed. -/
structure Codec.Lawful {Text Sealed : Type} (C : Codec Text Sealed) : Prop where
  state : ∀ s, C.unmarshalState (C.marshalState s) = some s
  record : ∀ r, C.unmarshalRecord (C.marshalRecord r) = some r
  decrypt : ∀ nonce plain, C.decrypt (C.encrypt nonce plain) = some plain

structure Store (Text Sealed : Type) where
  /-- The bucket `state`, which has one key. -/
  current : Option Sealed := none
  /-- The bucket `journal`, in the order of its keys: eight big-endian bytes are ordered as the
  numbers they write. -/
  journal : List (Nat × Text) := []

/-- What happens outside the code when it writes: the nonce that is drawn, and whether drawing it
or a write to the database fails. -/
structure Write where
  nonce : Bytes.Fixed 12
  fails : Bool := false

section Methods

variable {Text Sealed : Type} (C : Codec Text Sealed)

def Store.load (store : Store Text Sealed) : Except LedgerError State :=
  match store.current with
  | none => .ok newState
  | some encrypted => do
      let plain ← orElse (.wrap "decrypting state" .storeFailure) (C.decrypt encrypted)
      orElse (.wrap "decoding state" .storeFailure) (C.unmarshalState plain)

/-- `Bucket.Put`. -/
def putKey (key : Nat) (value : Text) : List (Nat × Text) → List (Nat × Text)
  | [] => [(key, value)]
  | (k, v) :: rest =>
      if k < key then (k, v) :: putKey key value rest
      else if k = key then (key, value) :: rest
      else (key, value) :: (k, v) :: rest

/-- The hash of a record: that of the record without it. -/
def JournalRecord.digest (record : JournalRecord) : String :=
  String.ofList (Bytes.hexEncode (C.sha256 (C.marshalRecord { record with hash := "" })).toList)

/-- The hash of the last record, empty when there is none. -/
def Store.lastHash (store : Store Text Sealed) : Except LedgerError String :=
  match store.journal.getLast? with
  | none => .ok ""
  | some (_, v) => (orElse .storeFailure (C.unmarshalRecord v)).map JournalRecord.hash

def Store.commit (write : Write) (state : State) (kind : OpKind) (store : Store Text Sealed) :
    Except LedgerError (Store Text Sealed) := do
  rejectIf (write.fails = true) .storeFailure
  let previousHash ← store.lastHash C
  let record : JournalRecord :=
    { sequence := state.sequence, kind := kind.label, stateRoot := state.root, previousHash }
  let record := { record with hash := record.digest C }
  return {
    current := some (C.encrypt write.nonce (C.marshalState state))
    journal := putKey state.sequence (C.marshalRecord record) store.journal }

def Store.saveState (write : Write) (state : State) (store : Store Text Sealed) :
    Except LedgerError (Store Text Sealed) := do
  rejectIf (write.fails = true) .storeFailure
  return { store with current := some (C.encrypt write.nonce (C.marshalState state)) }

end Methods

/-! ### What the methods do -/

section Lemmas

variable {Text Sealed : Type} {C : Codec Text Sealed} {write : Write} {s : State}
  {store store' : Store Text Sealed}

/-- A state that was written is the one that is loaded. -/
theorem load_of_current (h : C.Lawful) {nonce : Bytes.Fixed 12}
    (hcurrent : store.current = some (C.encrypt nonce (C.marshalState s))) :
    store.load C = .ok s := by
  unfold Store.load
  rw [hcurrent]
  simp only [h.decrypt, h.state, Outcome.orElse, ok_bind]

theorem commit_ok {kind : OpKind} (h : store.commit C write s kind = .ok store') :
    write.fails = false ∧ ∃ previousHash, store.lastHash C = .ok previousHash ∧
      ∃ record : JournalRecord, record.sequence = s.sequence ∧ record.kind = kind.label ∧
        record.stateRoot = s.root ∧ record.previousHash = previousHash ∧
        record.hash = record.digest C ∧
        store' = {
          current := some (C.encrypt write.nonce (C.marshalState s))
          journal := putKey s.sequence (C.marshalRecord record) store.journal } := by
  unfold Store.commit at h
  simp only [bind_eq_ok, rejectIf_eq_ok] at h
  obtain ⟨_, hfails, previousHash, hlast, hs⟩ := h
  cases hs
  exact ⟨by simpa using hfails, previousHash, hlast, _, rfl, rfl, rfl, rfl, rfl, rfl⟩

theorem saveState_ok (h : store.saveState C write s = .ok store') :
    write.fails = false ∧ store' = { store with
      current := some (C.encrypt write.nonce (C.marshalState s)) } := by
  unfold Store.saveState at h
  simp only [bind_eq_ok, rejectIf_eq_ok] at h
  obtain ⟨_, hfails, hs⟩ := h
  cases hs
  exact ⟨by simpa using hfails, rfl⟩

/-- A key above all others is appended. -/
theorem putKey_append {key : Nat} {value : Text} {entries : List (Nat × Text)}
    (h : ∀ e ∈ entries, e.1 < key) : putKey key value entries = entries ++ [(key, value)] := by
  induction entries with
  | nil => rfl
  | cons e rest ih =>
      obtain ⟨k, v⟩ := e
      have hk : k < key := h (k, v) List.mem_cons_self
      rw [putKey, if_pos hk, ih fun e he => h e (List.mem_cons_of_mem _ he)]
      rfl

end Lemmas

end QuietLine
