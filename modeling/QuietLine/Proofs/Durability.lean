/-
What a restart finds.

The store is written before the memory is replaced, so between two steps the sealed
state is the state in memory and loading it starts the same engine again.  Every
commit adds the next record of the journal, chained to the one before it, and nothing
else writes there.
-/
import QuietLine.Proofs.Gate
import Mathlib.Data.List.Chain

namespace QuietLine

open Outcome

variable {Text Sealed : Type} {C : Codec Text Sealed} {host : Host}

/-! ### The journal -/

/-- Each record names the hash of the one before it; the first names none. -/
def HashChained (records : List JournalRecord) : Prop :=
  (∀ r ∈ records.head?, r.previousHash = "") ∧
    records.IsChain fun r r' => r'.previousHash = r.hash

/-- The records of a journal, one for each sequence number up to that of the state. -/
structure Journaled (C : Codec Text Sealed) (s : State) (entries : List (Nat × Text))
    (records : List JournalRecord) : Prop where
  entries : entries = records.map fun r => (r.sequence, C.marshalRecord r)
  sequences : records.map JournalRecord.sequence = List.range' 1 s.sequence
  chained : HashChained records
  hashes : ∀ r ∈ records, r.hash = r.digest C
  root : ∀ r ∈ records.getLast?, r.stateRoot = s.root

section Journal

variable {s s' : State} {store store' : Store Text Sealed} {records : List JournalRecord}

theorem HashChained.concat (h : HashChained records) {r : JournalRecord}
    (hr : r.previousHash = (records.getLast?.map JournalRecord.hash).getD "") :
    HashChained (records ++ [r]) := by
  obtain ⟨hfirst, hchain⟩ := h
  constructor
  · cases records with
    | nil => simpa using hr
    | cons first rest => simpa using hfirst
  · refine List.isChain_append.mpr ⟨hchain, .singleton r, ?_⟩
    intro last hlast next hnext
    rw [Option.mem_def] at hlast
    simp only [List.head?_cons, Option.mem_def, Option.some.injEq] at hnext
    rw [← hnext, hr, hlast]
    rfl

theorem Journaled.lastHash (hC : C.Lawful) (h : Journaled C s store.journal records) :
    store.lastHash C = .ok ((records.getLast?.map JournalRecord.hash).getD "") := by
  unfold Store.lastHash
  rw [h.entries, List.getLast?_map]
  cases records.getLast? with
  | none => rfl
  | some r =>
      simp only [Option.map_some, hC.record, Outcome.orElse]
      rfl

/-- A commit adds its record. -/
theorem Journaled.commit (hC : C.Lawful) (h : Journaled C s store.journal records) {write : Write}
    {kind : OpKind} (hsequence : s'.sequence = s.sequence + 1)
    (hcommit : store.commit C write s' kind = .ok store') :
    ∃ r, Journaled C s' store'.journal (records ++ [r]) := by
  obtain ⟨_, previousHash, hlast, r, hseq, _, hroot, hprev, hhash, rfl⟩ := commit_ok hcommit
  rw [h.lastHash hC, Except.ok.injEq] at hlast
  refine ⟨r, { entries := ?_, sequences := ?_, chained := h.chained.concat (hprev.trans hlast.symm),
               hashes := ?_, root := by simp [hroot] }⟩
  · have hbelow : ∀ e ∈ store.journal, e.1 < s'.sequence := by
      rw [h.entries]
      intro e he
      obtain ⟨r', hr', rfl⟩ := List.mem_map.mp he
      have hmem : r'.sequence ∈ List.range' 1 s.sequence :=
        h.sequences ▸ List.mem_map_of_mem hr'
      rw [List.mem_range'_1] at hmem
      dsimp only
      omega
    dsimp only
    rw [putKey_append hbelow, h.entries, List.map_append, List.map_singleton, hseq]
  · rw [List.map_append, List.map_singleton, h.sequences, hsequence, List.range'_concat, hseq,
      hsequence]
    simp [Nat.add_comm]
  · intro r' hr'
    rcases List.mem_append.mp hr' with hr' | hr'
    · exact h.hashes r' hr'
    · rw [List.mem_singleton.mp hr']
      exact hhash

end Journal

/-! ### The store and the memory -/

/-- Between two steps: what is stored is what is in memory. -/
structure Engine.Durable (C : Codec Text Sealed) (host : Host) (e : Engine Text Sealed) :
    Prop where
  gated : ∃ base, e.Gated host base
  stored : e.store.load C = .ok e.state
  journaled : ∃ records, Journaled C e.state e.store.journal records

section Invariant

variable {e e' : Engine Text Sealed}

theorem Engine.start_durable : (Engine.start {} newState : Engine Text Sealed).Durable C host where
  gated := ⟨_, Engine.start_gated {} host []⟩
  stored := rfl
  journaled := ⟨[], { entries := rfl, sequences := rfl, chained := ⟨by simp, .nil⟩,
                      hashes := by simp, root := by simp }⟩

theorem Engine.Durable.steps (hC : C.Lawful) (h : e.Durable C host) {caller : Option Nat}
    (hs : e.Steps C host caller e') : e'.Durable C host := by
  obtain ⟨base, hgated⟩ := h.gated
  obtain ⟨records, hjournal⟩ := h.journaled
  refine { gated := ⟨base, hgated.steps hs⟩, stored := ?_, journaled := ?_ }
  · cases hs with
    | called _ => exact h.stored
    | passed _ _ => exact h.stored
    | committed _ _ _ _ hstored =>
        obtain ⟨_, _, _, _, _, _, _, _, _, rfl⟩ := commit_ok hstored
        exact load_of_current hC rfl
    | answered => exact h.stored
    | cleared _ hstored _ =>
        obtain ⟨_, rfl⟩ := saveState_ok hstored
        exact load_of_current hC rfl
  · cases hs with
    | called _ => exact ⟨records, hjournal⟩
    | passed _ _ => exact ⟨records, hjournal⟩
    | committed _ _ _ _ hstored =>
        obtain ⟨r, hr⟩ := hjournal.commit hC rfl hstored
        exact ⟨_, hr⟩
    | answered => exact ⟨records, hjournal⟩
    | cleared _ hstored _ =>
        obtain ⟨_, rfl⟩ := saveState_ok hstored
        exact ⟨records, { hjournal with }⟩

/-- A restart finds the engine as it was. -/
theorem Engine.Durable.newEngine_eq (h : e.Durable C host) :
    newEngine C e.store = .ok (Engine.start e.store e.state) := by
  unfold newEngine
  rw [h.stored, ok_bind]
  rfl

theorem Engine.Durable.restart (h : e.Durable C host) :
    (Engine.start e.store e.state).Durable C host := by
  obtain ⟨base, hgated⟩ := h.gated
  obtain ⟨events, hevents⟩ := hgated.ledger
  refine { gated := ?_, stored := h.stored, journaled := h.journaled }
  rw [hevents]
  exact ⟨_, Engine.start_gated e.store host events⟩

theorem Engine.Durable.live (hC : C.Lawful) (h : e.Durable C host) {move : ProcessMove}
    (hs : e.live C host move = .ok e') : e'.Durable C host := by
  cases move with
  | serve move =>
      cases hstep : e.step C host move with
      | error fault => simp [Engine.live, hstep, Except.mapError] at hs
      | ok e₁ =>
          simp only [Engine.live, hstep, Except.mapError, Except.ok.injEq] at hs
          obtain rfl := hs
          exact h.steps hC (Engine.step_steps hstep)
  | restart =>
      simp only [Engine.live, h.newEngine_eq, Except.mapError, Except.ok.injEq] at hs
      obtain rfl := hs
      exact h.restart

theorem engineAfter_durable (hC : C.Lawful) (host : Host) (moves : List ProcessMove) :
    (engineAfter C host moves).Durable C host :=
  Machine.invariant (fun _ _ _ h hs => h.live hC hs) Engine.start_durable moves

/-! ### Durability -/

/-- **Durability**: whatever fails and whenever the process is restarted. -/
theorem state_durable (hC : C.Lawful) (host : Host) (moves : List ProcessMove) :
    let e := engineAfter C host moves
    -- what is stored is what is in memory
    e.store.load C = .ok e.state ∧
    -- a restart finds it, with the gate it had
    (∃ e', newEngine C e.store = .ok e' ∧ e'.store = e.store ∧ e'.state = e.state ∧
      (e'.anchorCleared ∈ e'.closed ↔ e.anchorCleared ∈ e.closed)) ∧
    -- a call that commits survives it with its pending anchor
    (∀ move i e', e.step C host move = .ok e' → e.Commits host i e' →
      ∃ e'', newEngine C e'.store = .ok e'' ∧ e''.state = e'.state ∧
        e''.state.pendingAnchor ≠ none) ∧
    -- a call that fails has left no trace
    (∀ (move : EngineMove) (i : Nat) (later : List EngineMove) (c : Caller) (cause : LedgerError),
      move.caller = some i →
      ((Machine.next (Engine.step C host) e move).after C host later).callers[i]? = some c →
      c.phase = .returned (.error cause) →
      e.Keeps (Machine.next (Engine.step C host) e move)) ∧
    -- the journal has one chained record for each commit
    ∃ records, Journaled C e.state e.store.journal records := by
  intro e
  have h : e.Durable C host := engineAfter_durable hC host moves
  obtain ⟨base, hgated⟩ := h.gated
  refine ⟨h.stored, ⟨_, h.newEngine_eq, rfl, rfl, ?_⟩, ?_, ?_, h.journaled⟩
  · obtain ⟨base', hgated'⟩ := h.restart.gated
    exact hgated'.gate.trans hgated.gate.symm
  · intro move i e' hs hcommits
    have h' : e'.Durable C host := h.steps hC (Engine.step_steps hs)
    refine ⟨_, h'.newEngine_eq, rfl, ?_⟩
    obtain ⟨c, _, hanchor⟩ := hcommits.anchor
    simp [Engine.start, hanchor]
  · intro move i later c cause hcaller hget hphase
    exact hgated.keeps_of_failed hcaller later hget hphase

/-- JSON text and sealed text that remember what they were made from. -/
def sampleCodec : Codec (State ⊕ JournalRecord) (Bytes.Fixed 12 × (State ⊕ JournalRecord)) where
  marshalState := .inl
  unmarshalState := Sum.getLeft?
  marshalRecord := .inr
  unmarshalRecord := Sum.getRight?
  sha256
    | .inl s => Bytes.Fixed.ofList 32 (Bytes.bigEndian 8 s.sequence)
    | .inr r => Bytes.Fixed.ofList 32 (Bytes.bigEndian 8 r.sequence)
  encrypt nonce plain := (nonce, plain)
  decrypt sealed := some sealed.2

theorem sampleCodec_lawful : sampleCodec.Lawful where
  state _ := rfl
  record _ := rfl
  decrypt _ _ := rfl

/-- Two deposits, the first committed at the second attempt of the store, and a restart before it
is confirmed. -/
def sampleProcess : List ProcessMove :=
  let ctx : Context := { requestedAt := 1000, now := 1000, range := RangeOrder.sorted }
  let write : Write := { nonce := Bytes.Fixed.ofList 12 [] }
  [.serve (.call (.deposit "0xa" "FXRP" 5 "one") ctx), .serve (.lock 0 ctx { write with fails := true }),
    .serve (.call (.deposit "0xa" "FXRP" 5 "one") ctx), .serve (.lock 1 ctx write), .restart,
    .serve (.call (.deposit "0xb" "FXRP" 7 "two") ctx), .serve (.lock 0 ctx write)]

theorem state_durable_restart :
    let e := engineAfter sampleCodec sampleHost sampleProcess
    e.store.load sampleCodec = .ok e.state ∧ e.state.sequence = 1 ∧ e.store.journal.length = 1 ∧
      e.anchorCleared ∉ e.closed :=
  ⟨(state_durable sampleCodec_lawful sampleHost sampleProcess).1, by decide +kernel,
    by decide +kernel, by decide +kernel⟩

end Invariant

end QuietLine
