/-
The relayer's database (`relayer/src/db.ts`): its jobs and its cursors.

The source keeps both in SQLite tables and every method runs one statement at a
time, so a store is the rows it holds and a method that throws has written nothing.
What the relayer calls `undefined` is `none` here, and a text that JavaScript takes
for false reads back as none (`fromRow`).
-/
import QuietLine.Extension.Protocol

namespace QuietLine.Relayer

open Outcome

/-! ### Jobs -/

inductive JobStatus where
  | queued
  | submitted
  | processing
  | settling
  | confirming
  | confirmed
  | failed
  deriving DecidableEq, Repr

structure DirectPayload where
  command : String
  ciphertext : List UInt8
  deriving DecidableEq

structure ChainPayload where
  command : String
  requestID : Hash
  blockNumber : Nat
  deriving DecidableEq

inductive Payload where
  | direct (payload : DirectPayload)
  | chain (payload : ChainPayload)
  deriving DecidableEq

structure Job where
  id : String
  externalKey : Option String
  type : String
  status : JobStatus
  account : String
  actionID : Option Hash := none
  txHash : Option Hash := none
  error : Option String := none
  payload : Payload
  response : Option Reply := none
  attempts : Nat
  createdAt : Nat
  updatedAt : Nat
  deriving DecidableEq

/-- What `updateJob` may write; a field that is left out stays as it is. -/
structure JobPatch where
  status : Option JobStatus := none
  actionID : Option (Option Hash) := none
  txHash : Option (Option Hash) := none
  error : Option (Option String) := none
  response : Option (Option Reply) := none
  attempts : Option Nat := none
  deriving DecidableEq

/-- `{ ...current, ...patch, updatedAt: Date.now() }`. -/
def JobPatch.apply (patch : JobPatch) (now : Nat) (current : Job) : Job :=
  { current with
    status := patch.status.getD current.status
    actionID := patch.actionID.getD current.actionID
    txHash := patch.txHash.getD current.txHash
    error := patch.error.getD current.error
    response := patch.response.getD current.response
    attempts := patch.attempts.getD current.attempts
    updatedAt := now }

/-- The columns that the `UPDATE` of `updateJob` sets. -/
def Job.overwrite (row next : Job) : Job :=
  { row with
    status := next.status
    actionID := next.actionID
    txHash := next.txHash
    error := next.error
    response := next.response
    attempts := next.attempts
    updatedAt := next.updatedAt }

inductive StoreError where
  | jobNotFound
  | notFailed
  /-- A `UNIQUE` or `PRIMARY KEY` constraint of the table. -/
  | constraint
  deriving DecidableEq, Repr

def StoreError.message : StoreError → String
  | jobNotFound => "job not found"
  | notFailed => "only failed jobs can be retried"
  | constraint => "UNIQUE constraint failed"

/-- The statuses that `nextRunnableJob` selects. -/
def JobStatus.isRunnable : JobStatus → Bool
  | queued | submitted | processing | settling | confirming => true
  | confirmed | failed => false

/-- A text is false when it is empty. -/
def truthy (text : Option String) : Option String := text.filter fun t => t ≠ ""

/-- The job that `createJob` inserts. -/
def Job.queued (uuid : String) (now : Nat) (type account : String) (payload : Payload)
    (externalKey : Option String) : Job :=
  { id := uuid, externalKey := truthy externalKey, type, status := .queued
    account := toLower account, payload, attempts := 0, createdAt := now, updatedAt := now }

/-! ### The store -/

structure Store where
  /-- The rows of `jobs`, in the order they were inserted. -/
  jobs : List Job := []
  cursors : String → Option Nat := fun _ => none

def fromRow (row : Job) : Job :=
  { row with externalKey := truthy row.externalKey, error := truthy row.error }

namespace Store

variable (s : Store)

def getJob (id : String) : Option Job := (s.jobs.find? fun row => row.id = id).map fromRow

def getJobByExternalKey (externalKey : String) : Option Job :=
  (s.jobs.find? fun row => row.externalKey = some externalKey).map fromRow

/-- The `INSERT` of `createJob`. -/
def insertJob (job : Job) : Except StoreError Store := do
  rejectIf (∃ row ∈ s.jobs, row.id = job.id) .constraint
  rejectIf (job.externalKey.isSome ∧ ∃ row ∈ s.jobs, row.externalKey = job.externalKey) .constraint
  return { s with jobs := s.jobs ++ [job] }

/-- `createJob`, at the time `now` and with what `randomUUID` answers. -/
def createJob (uuid : String) (now : Nat) (type account : String) (payload : Payload)
    (externalKey : Option String) : Except StoreError (Job × Store) :=
  match (truthy externalKey).bind s.getJobByExternalKey with
  | some existing => .ok (existing, s)
  | none => do
      let job : Job := .queued uuid now type account payload externalKey
      let s ← s.insertJob job
      return (job, s)

/-- `updateJob`. -/
def updateJob (id : String) (patch : JobPatch) (now : Nat) : Except StoreError (Job × Store) := do
  let current ← orElse .jobNotFound (s.getJob id)
  let next := patch.apply now current
  return (next,
    { s with jobs := s.jobs.map fun row => if row.id = id then row.overwrite next else row })

def resetForRetry (id : String) (now : Nat) : Except StoreError (Job × Store) := do
  let current ← orElse .jobNotFound (s.getJob id)
  rejectIf (current.status ≠ .failed) .notFailed
  s.updateJob id
    { status := some (if current.actionID.isSome then .submitted else .queued)
      error := some none } now

/-- The oldest of the runnable rows; which one of several, the query leaves open. -/
def nextRunnableJob (tie : Nat) : Option Job := do
  let runnable := s.jobs.filter fun row => row.status.isRunnable
  let oldest ← (runnable.map Job.createdAt).min?
  let rows := runnable.filter fun row => row.createdAt = oldest
  let row ← rows[tie % rows.length]?
  return fromRow row

def getCursor (name : String) (fallback : Nat) : Nat := (s.cursors name).getD fallback

def setCursor (name : String) (value : Nat) : Store :=
  { s with cursors := fun n => if n = name then some value else s.cursors n }

end Store

/-! ### Enqueueing

The store's part of `enqueueDirect` and `enqueueChain`; both go on to wake the orchestrator.
-/

namespace Store

variable (s : Store) (uuid : String) (now : Nat)

def enqueueDirect (account command : String) (ciphertext : List UInt8) :
    Except StoreError (Job × Store) :=
  s.createJob uuid now command account (.direct { command, ciphertext }) none

def enqueueChain (account command : String) (requestID : Hash) (blockNumber : Nat)
    (externalKey : String) : Except StoreError (Job × Store) :=
  s.createJob uuid now command account (.chain { command, requestID, blockNumber })
    (some externalKey)

end Store

/-! ### What the methods leave -/

section Inversion

variable {s s' : Store} {job : Job} {now : Nat}

@[simp] theorem fromRow_id (row : Job) : (fromRow row).id = row.id := rfl
@[simp] theorem fromRow_payload (row : Job) : (fromRow row).payload = row.payload := rfl
@[simp] theorem overwrite_id (row next : Job) : (row.overwrite next).id = row.id := rfl
@[simp] theorem overwrite_externalKey (row next : Job) :
    (row.overwrite next).externalKey = row.externalKey := rfl
@[simp] theorem overwrite_payload (row next : Job) :
    (row.overwrite next).payload = row.payload := rfl
@[simp] theorem setCursor_jobs (name : String) (value : Nat) :
    (s.setCursor name value).jobs = s.jobs := rfl
@[simp] theorem getCursor_setCursor (name : String) (value fallback : Nat) :
    (s.setCursor name value).getCursor name fallback = value := by
  simp [Store.getCursor, Store.setCursor]

theorem insertJob_ok (h : s.insertJob job = .ok s') :
    (∀ row ∈ s.jobs, row.id ≠ job.id) ∧
      (job.externalKey.isSome → ∀ row ∈ s.jobs, row.externalKey ≠ job.externalKey) ∧
      s' = { s with jobs := s.jobs ++ [job] } := by
  unfold Store.insertJob at h
  simp only [bind_eq_ok, rejectIf_eq_ok] at h
  obtain ⟨_, hid, _, hkey, hs⟩ := h
  cases hs
  refine ⟨fun row hrow heq => hid ⟨row, hrow, heq⟩, fun hsome row hrow heq => ?_, rfl⟩
  exact hkey ⟨hsome, row, hrow, heq⟩

/-- The job that is answered with is the one the key is taken by, or it is inserted. -/
theorem createJob_ok {uuid type account : String} {payload : Payload} {key : Option String}
    (h : s.createJob uuid now type account payload key = .ok (job, s')) :
    (s' = s ∧ ∃ row ∈ s.jobs, job = fromRow row ∧ truthy key = row.externalKey ∧
        row.externalKey.isSome) ∨
      (job = .queued uuid now type account payload key ∧ (∀ row ∈ s.jobs, row.id ≠ uuid) ∧
        (job.externalKey.isSome → ∀ row ∈ s.jobs, row.externalKey ≠ job.externalKey) ∧
        s' = { s with jobs := s.jobs ++ [job] }) := by
  unfold Store.createJob at h
  cases hfound : (truthy key).bind s.getJobByExternalKey with
  | some existing =>
      rw [hfound] at h
      cases h
      left
      obtain ⟨k, hk, hexisting⟩ := Option.bind_eq_some_iff.mp hfound
      obtain ⟨row, hrow, rfl⟩ := Option.map_eq_some_iff.mp hexisting
      have hrowkey := List.find?_some hrow
      simp only [decide_eq_true_eq] at hrowkey
      exact ⟨rfl, row, List.mem_of_find?_eq_some hrow, rfl, by rw [hk, hrowkey], by simp [hrowkey]⟩
  | none =>
      rw [hfound] at h
      right
      obtain ⟨s₁, hinsert, hs⟩ := bind_eq_ok.mp h
      cases hs
      obtain ⟨hid, hkey, hs'⟩ := insertJob_ok hinsert
      exact ⟨rfl, hid, hkey, hs'⟩

/-- What is picked is a row that may be picked. -/
theorem nextRunnableJob_eq_some {tie : Nat} (h : s.nextRunnableJob tie = some job) :
    ∃ row ∈ s.jobs, row.status.isRunnable = true ∧ job = fromRow row ∧
      ∀ other ∈ s.jobs, other.status.isRunnable = true → row.createdAt ≤ other.createdAt := by
  obtain ⟨oldest, holdest, h⟩ := Option.bind_eq_some_iff.mp h
  obtain ⟨row, hget, heq⟩ := Option.bind_eq_some_iff.mp h
  cases heq
  obtain ⟨hrunnable, hage⟩ := List.mem_filter.mp (List.mem_of_getElem? hget)
  obtain ⟨hrow, hstatus⟩ := List.mem_filter.mp hrunnable
  refine ⟨row, hrow, hstatus, rfl, fun other hother hopen => ?_⟩
  rw [of_decide_eq_true hage]
  exact (List.min?_eq_some_iff.mp holdest).2 _
    (List.mem_map.mpr ⟨other, List.mem_filter.mpr ⟨hother, hopen⟩, rfl⟩)

/-- Where none is picked there is none. -/
theorem nextRunnableJob_eq_none {tie : Nat} (h : s.nextRunnableJob tie = none) :
    ∀ row ∈ s.jobs, row.status.isRunnable = false := by
  intro row hrow
  by_contra hopen
  have hmem : row ∈ s.jobs.filter fun row => row.status.isRunnable :=
    List.mem_filter.mpr ⟨hrow, by simpa using hopen⟩
  unfold Store.nextRunnableJob at h
  cases holdest : ((s.jobs.filter fun row => row.status.isRunnable).map Job.createdAt).min? with
  | none =>
      rw [List.min?_eq_none_iff, List.map_eq_nil_iff] at holdest
      rw [holdest] at hmem
      cases hmem
  | some oldest =>
      simp only [holdest, Option.bind_eq_bind, Option.bind_some] at h
      obtain ⟨first, hfirst, hage⟩ :=
        List.mem_map.mp (List.min?_eq_some_iff.mp holdest).1
      have hpick : first ∈ (s.jobs.filter fun row => row.status.isRunnable).filter
          fun row => row.createdAt = oldest :=
        List.mem_filter.mpr ⟨hfirst, decide_eq_true hage⟩
      have hlt := Nat.mod_lt tie (List.length_pos_of_mem hpick)
      rw [List.getElem?_eq_getElem hlt] at h
      cases h

/-- An update rewrites the row of one job and keeps its key and what it was enqueued with. -/
theorem updateJob_ok {id : String} {patch : JobPatch}
    (h : s.updateJob id patch now = .ok (job, s')) :
    ∃ row ∈ s.jobs, row.id = id ∧ job = patch.apply now (fromRow row) ∧
      s' = { s with jobs := s.jobs.map fun row => if row.id = id then row.overwrite job else row } := by
  unfold Store.updateJob at h
  obtain ⟨current, hcurrent, h⟩ := bind_eq_ok.mp h
  cases h
  obtain ⟨row, hrow, rfl⟩ := Option.map_eq_some_iff.mp (orElse_eq_ok.mp hcurrent)
  have hid := List.find?_some hrow
  simp only [decide_eq_true_eq] at hid
  exact ⟨row, List.mem_of_find?_eq_some hrow, hid, rfl, rfl⟩

end Inversion

end QuietLine.Relayer
