/-
A job's record only moves forward.

While `process` works on a job it is the only one to write the job's row: one drain
runs at a time, and a retry takes only a job that has failed, which ends `process`.
So the program can be read as acting on that row, and what it may write next is a
condition on the row as it is.  Two facts are needed of every write.

  * It leads where the status may go (`JobStatus.mayBecome`); nothing leads out of
    `confirmed`, and an action id is written only where there is none.
  * It leaves a record that agrees with its status (`Job.Consistent`): what has been
    accepted by FCC has its id, what failed has its error, what was settled has its
    transaction.
-/
import Mathlib.Logic.Relation
import QuietLine.System.Deployment
import QuietLine.Proofs.Wakeups

namespace QuietLine.Relayer

open Process Outcome

/-! ### What a record may become -/

/-- Where one write may take the status of a job. -/
def JobStatus.mayBecome : JobStatus → JobStatus → Bool
  | queued, submitted | queued, failed => true
  | submitted, processing => true
  | processing, processing | processing, settling => true
  | processing, confirmed | processing, failed => true
  | settling, processing | settling, confirming => true
  | settling, confirmed | settling, failed => true
  | confirming, processing | confirming, confirmed => true
  | failed, queued | failed, submitted => true
  | _, _ => false

/-- The action that a job's instruction is, before it is submitted. -/
def Payload.requestID : Payload → Option Hash
  | direct _ => none
  | chain payload => some payload.requestID

/-- A record agrees with its status. -/
structure Job.Consistent (row : Job) : Prop where
  /-- FCC has accepted what is past the queue. -/
  accepted : row.actionID = none → row.status = .queued ∨ row.status = .failed
  queued : row.status = .queued → row.actionID = none
  /-- An instruction from the chain is followed under its own id. -/
  followed : ∀ id, row.actionID = some id → ∀ request, row.payload.requestID = some request →
    id = request
  failed : row.error.isSome ↔ row.status = .failed
  /-- What was settled has a transaction recorded. -/
  settled : row.status = .confirming ∨ row.status = .confirmed → (findAnchor row.response).isSome →
    row.txHash.isSome

/-- What a record may have become. -/
structure Job.Precedes (row row' : Job) : Prop where
  id : row'.id = row.id
  externalKey : row'.externalKey = row.externalKey
  type : row'.type = row.type
  account : row'.account = row.account
  payload : row'.payload = row.payload
  createdAt : row'.createdAt = row.createdAt
  attempts : row.attempts ≤ row'.attempts
  actionID : row.actionID.isSome → row'.actionID = row.actionID
  status : Relation.ReflTransGen (fun a b => JobStatus.mayBecome a b = true) row.status row'.status
  final : row.status = .confirmed → row' = row

theorem Job.Precedes.refl (row : Job) : row.Precedes row :=
  ⟨rfl, rfl, rfl, rfl, rfl, rfl, Nat.le_refl _, fun _ => rfl, .refl, fun _ => rfl⟩

theorem Job.Precedes.trans {a b c : Job} (h : a.Precedes b) (h' : b.Precedes c) : a.Precedes c where
  id := h'.id.trans h.id
  externalKey := h'.externalKey.trans h.externalKey
  type := h'.type.trans h.type
  account := h'.account.trans h.account
  payload := h'.payload.trans h.payload
  createdAt := h'.createdAt.trans h.createdAt
  attempts := Nat.le_trans h.attempts h'.attempts
  actionID hsome := by
    have hb := h.actionID hsome
    rw [h'.actionID (by rw [hb]; exact hsome), hb]
  status := h.status.trans h'.status
  final hconfirmed := by
    obtain rfl := h.final hconfirmed
    exact h'.final hconfirmed

/-! ### One write -/

/-- The row that an update leaves. -/
def JobPatch.write (patch : JobPatch) (now : Nat) (row : Job) : Job :=
  row.overwrite (patch.apply now (fromRow row))

section Write

variable (patch : JobPatch) (now : Nat) (row : Job)

@[simp] theorem write_id : (patch.write now row).id = row.id := rfl
@[simp] theorem write_payload : (patch.write now row).payload = row.payload := rfl
@[simp] theorem write_status : (patch.write now row).status = patch.status.getD row.status := rfl
@[simp] theorem write_actionID :
    (patch.write now row).actionID = patch.actionID.getD row.actionID := rfl
@[simp] theorem write_error :
    (patch.write now row).error = patch.error.getD (truthy row.error) := rfl
@[simp] theorem write_response :
    (patch.write now row).response = patch.response.getD row.response := rfl
@[simp] theorem write_txHash : (patch.write now row).txHash = patch.txHash.getD row.txHash := rfl
@[simp] theorem write_attempts :
    (patch.write now row).attempts = patch.attempts.getD row.attempts := rfl

end Write

/-- A write that may be made of a record that is not final. -/
structure JobPatch.Advances (patch : JobPatch) (row : Job) : Prop where
  status : ∀ status, patch.status = some status → row.status.mayBecome status = true
  actionID : patch.actionID.isSome → row.actionID = none
  attempts : ∀ n, patch.attempts = some n → row.attempts ≤ n
  consistent : ∀ now, (patch.write now row).Consistent

theorem JobPatch.Advances.precedes {patch : JobPatch} {row : Job} (h : patch.Advances row)
    (hopen : row.status ≠ .confirmed) (now : Nat) : row.Precedes (patch.write now row) where
  id := rfl
  externalKey := rfl
  type := rfl
  account := rfl
  payload := rfl
  createdAt := rfl
  attempts := by
    rw [write_attempts]
    cases hn : patch.attempts with
    | none => exact Nat.le_refl _
    | some n => exact h.attempts n hn
  actionID hsome := by
    rw [write_actionID]
    cases hid : patch.actionID with
    | none => rfl
    | some id =>
        have hnone := h.actionID (by rw [hid]; rfl)
        rw [hnone] at hsome
        cases hsome
  status := by
    rw [write_status]
    cases hs : patch.status with
    | none => exact .refl
    | some status => exact .single (h.status status hs)
  final hconfirmed := absurd hconfirmed hopen

/-! ### What `process` writes -/

/-- An update writes the row and is answered with what it read and wrote; nothing else a program of
the relayer asks touches the row. -/
def rowEffect : (r : Ask) → Job → Answered r → Job → Prop
  | .update _ patch, row, answer, row' =>
      ∃ now, answer = .ok (patch.apply now (fromRow row)) ∧ row' = patch.write now row
  | _, row, _, row' => row' = row

/-- It asks while the job is open, and updates this job alone. -/
def rowGuard (row : Job) (r : Ask) : Prop :=
  row.status.isRunnable = true ∧ ∀ id patch, r = .update id patch → id = row.id ∧ patch.Advances row

/-- The program acts on the row; what it throws it throws at a row that meets `fail`. -/
abbrev Acts {α : Type} (ok : Job → α → Prop) (fail : Job → String → Prop) (row : Job)
    (x : Relay α) : Prop :=
  Fallible.Governed rowEffect rowGuard ok fail row x

section Acts

variable {α β : Type} {ok : Job → α → Prop} {fail : Job → String → Prop} {row : Job}

theorem Acts.write (ok : Job → Job → Prop) {id : String} {patch : JobPatch}
    (hopen : row.status.isRunnable = true) (hid : id = row.id) (hadvances : patch.Advances row)
    (hok : ∀ now, ok (patch.write now row) (patch.apply now (fromRow row))) :
    Acts ok fail row (Relayer.update id patch) := by
  refine ⟨⟨hopen, ?_⟩, ?_⟩
  · intro id' patch' heq
    cases heq
    exact ⟨hid, hadvances⟩
  · rintro x row' ⟨now, rfl, rfl⟩
    exact hok now

theorem Acts.update {id : String} {patch : JobPatch} {f : Job → Relay α}
    (hopen : row.status.isRunnable = true) (hid : id = row.id) (hadvances : patch.Advances row)
    (hf : ∀ now, Acts ok fail (patch.write now row) (f (patch.apply now (fromRow row)))) :
    Acts ok fail row (Relayer.update id patch >>= f) := by
  refine Fallible.Governed.bind (Acts.write (fun row' job => ∃ now,
    row' = patch.write now row ∧ job = patch.apply now (fromRow row)) hopen hid hadvances ?_) ?_
  · exact fun now => ⟨now, rfl, rfl⟩
  · rintro _ _ ⟨now, rfl, rfl⟩
    exact hf now

/-- What awaits leaves the row alone. -/
theorem Acts.await {x : Relay α} {f : α → Relay β} {ok : Job → β → Prop} (hx : Awaits x)
    (hopen : row.status.isRunnable = true) (hfail : ∀ e, fail row e)
    (hf : ∀ a, Acts ok fail row (f a)) : Acts ok fail row (x >>= f) := by
  have hidle : Process.Obeys (fun _ (r : Ask) => r.isUpdate = false) (fun _ _ => True) [] x.run :=
    Process.Obeys.mono (hx []) fun _ _ _ => trivial
  refine Fallible.Governed.idle (fun r => r.isUpdate = false) hidle ?_ ?_ hfail hf
  · intro r hr
    refine ⟨hopen, fun id patch heq => ?_⟩
    rw [heq] at hr
    cases hr
  · intro r answer row' hr heffect
    cases r with
    | update id patch => cases hr
    | _ => exact heffect

end Acts

section Records

variable {patch : JobPatch} {row : Job} {status : JobStatus}

theorem Job.Consistent.errorless (h : row.Consistent) (hstatus : row.status ≠ .failed) :
    row.error = none := by
  cases he : row.error with
  | none => rfl
  | some e => exact absurd (h.failed.mp (by rw [he]; rfl)) hstatus

theorem ne_of_isRunnable (hopen : row.status.isRunnable = true) :
    row.status ≠ .failed ∧ row.status ≠ .confirmed := by
  constructor
  all_goals intro h; rw [h] at hopen; cases hopen

/-- The record of a job that FCC has accepted goes on to a status that is no failure. -/
theorem Job.Consistent.onward (h : row.Consistent) (hopen : row.status.isRunnable = true)
    (hstatus : patch.status = some status) (hqueued : status ≠ .queued) (hfailed : status ≠ .failed)
    (herror : patch.error = none) (haccepted : (patch.actionID.getD row.actionID).isSome)
    (hfollowed : ∀ id, patch.actionID = some (some id) →
      ∀ request, row.payload.requestID = some request → id = request)
    (hsettled : status = .confirming ∨ status = .confirmed →
      (findAnchor (patch.response.getD row.response)).isSome →
      (patch.txHash.getD row.txHash).isSome) (now : Nat) : (patch.write now row).Consistent := by
  have herrorless := h.errorless (ne_of_isRunnable hopen).1
  refine ⟨?_, ?_, ?_, ?_, ?_⟩
  · intro hnone
    rw [write_actionID] at hnone
    rw [hnone] at haccepted
    cases haccepted
  · intro heq
    rw [write_status, hstatus] at heq
    exact absurd heq hqueued
  · intro id hid
    rw [write_actionID] at hid
    cases hpatch : patch.actionID with
    | none => rw [hpatch] at hid; exact h.followed id hid
    | some action =>
        rw [hpatch] at hid
        exact hfollowed id (by rw [hpatch]; exact congrArg some hid)
  · simp [hstatus, herror, herrorless, hfailed, truthy]
  · intro hwhich
    rw [write_status, hstatus] at hwhich
    exact hsettled hwhich

/-- What is written besides the status of an open job. -/
theorem Job.Consistent.noted (h : row.Consistent) (hopen : row.status.isRunnable = true)
    (hstatus : patch.status = none) (herror : patch.error.getD none = none)
    (haction : patch.actionID = none) (hconfirming : row.status ≠ .confirming ∨
      patch.response = none ∧ patch.txHash = none) (now : Nat) :
    (patch.write now row).Consistent := by
  have herrorless := h.errorless (ne_of_isRunnable hopen).1
  have herror' : patch.error.getD (truthy row.error) = none := by
    rw [herrorless]
    cases he : patch.error with
    | none => rfl
    | some e => rw [he] at herror; exact herror
  refine ⟨?_, ?_, ?_, ?_, ?_⟩
  · simpa [hstatus, haction] using h.accepted
  · simpa [hstatus, haction] using h.queued
  · simpa [haction] using h.followed
  · simp [hstatus, herror', (ne_of_isRunnable hopen).1]
  · intro hwhich hanchor
    rw [write_status, hstatus] at hwhich
    rcases hconfirming with hne | ⟨hresponse, htx⟩
    · rcases hwhich with hwhich | hwhich
      · exact absurd hwhich hne
      · exact absurd hwhich (ne_of_isRunnable hopen).2
    · rw [write_txHash, htx]
      rw [write_response, hresponse] at hanchor
      exact h.settled hwhich hanchor

/-- The record of a failure. -/
theorem Job.Consistent.failure (h : row.Consistent) {error : String}
    (hstatus : patch.status = some .failed) (herror : patch.error = some (some error))
    (haction : patch.actionID = none) (now : Nat) : (patch.write now row).Consistent := by
  refine ⟨?_, ?_, ?_, ?_, ?_⟩
  · simp [hstatus]
  · simp [hstatus]
  · simpa [haction] using h.followed
  · simp [hstatus, herror]
  · simp [hstatus]

end Records

/-! ### The program -/

/-- Where a call of `process` on the job may stop with an error. -/
structure Stopped (initial row : Job) : Prop where
  id : row.id = initial.id
  payload : row.payload = initial.payload
  consistent : row.Consistent
  status : row.status = .processing ∨ row.status = .settling ∨
    row.status = .queued ∧ ∃ payload, row.payload = .direct payload

theorem Stopped.open {initial row : Job} (h : Stopped initial row) :
    row.status.isRunnable = true ∧ row.status.mayBecome .failed = true := by
  rcases h.status with hs | hs | ⟨hs, _⟩
  all_goals rw [hs]; exact ⟨rfl, rfl⟩

/-- `process` returns, with the job settled. -/
abbrev Ends (row : Job) (x : Relay Unit) : Prop := Acts (fun _ _ => True) (fun _ _ => False) row x

section Program

variable {initial row : Job}

theorem Acts.update_return {fail : Job → String → Prop} {id : String} {patch : JobPatch}
    (hopen : row.status.isRunnable = true) (hid : id = row.id) (hadvances : patch.Advances row) :
    Acts (fun _ _ => True) fail row (do
      let _ ← Relayer.update id patch
      return ()) :=
  Acts.update hopen hid hadvances fun _ => Fallible.Governed.pure trivial

theorem fail_ends (h : Stopped initial row) (error : String) :
    Ends row (Relayer.fail initial.id error) := by
  refine Acts.update_return h.open.1 h.id.symm ⟨?_, ?_, ?_, ?_⟩
  · intro status hs
    cases hs
    exact h.open.2
  · intro hsome
    cases hsome
  · intro n hn
    cases hn
  · exact h.consistent.failure rfl rfl rfl

/-- A job whose instruction is from the chain can be confirmed through its recovery. -/
theorem recovered_advances (h : Stopped initial row) {payload : ChainPayload}
    (hpayload : initial.payload = .chain payload) {response : Option Reply} {txHash : Option Hash}
    (htx : (findAnchor response).isSome → txHash.isSome) :
    JobPatch.Advances { status := some .confirmed, response := some response
                        txHash := txHash.map some } row := by
  have hstatus : row.status = .processing ∨ row.status = .settling := by
    rcases h.status with hs | hs | ⟨_, direct, hdirect⟩
    · exact Or.inl hs
    · exact Or.inr hs
    · rw [h.payload, hpayload] at hdirect
      cases hdirect
  have haccepted : row.actionID.isSome := by
    cases hid : row.actionID with
    | some id => rfl
    | none => rcases h.consistent.accepted hid with hs | hs <;> rcases hstatus with h' | h' <;>
        rw [hs] at h' <;> cases h'
  refine ⟨?_, ?_, ?_, ?_⟩
  · intro status hs
    cases hs
    rcases hstatus with hs | hs
    all_goals rw [hs]; rfl
  · intro hsome
    cases hsome
  · intro n hn
    cases hn
  · refine h.consistent.onward h.open.1 rfl (by decide) (by decide) rfl haccepted ?_ ?_
    · intro id hid
      cases hid
    · intro _ hanchor
      cases txHash with
      | none => exact absurd (htx hanchor) (by simp)
      | some hash => rfl

/-- Where the recovery settled something, it has the transaction. -/
theorem recoverDeposit_acts (hopen : row.status.isRunnable = true) (payload : ChainPayload) :
    Acts (fun row' recovery => row' = row ∧ ((findAnchor recovery.1).isSome → recovery.2.isSome))
      (fun row' _ => row' = row) row (recoverDeposit payload) := by
  refine Acts.await (depositForRequest_awaits _ _) hopen (fun _ => rfl) fun deposit => ?_
  refine Acts.await (submitJson_awaits _ _) hopen (fun _ => rfl) fun recoveryID => ?_
  refine Acts.await (Awaits.ask rfl) hopen (fun _ => rfl) fun recovery => ?_
  refine Acts.await (requireSuccess_awaits _ _) hopen (fun _ => rfl) fun _ => ?_
  refine Acts.await (decodeAny_awaits _) hopen (fun _ => rfl) fun response => ?_
  cases hanchor : findAnchor response with
  | none => exact Fallible.Governed.pure ⟨rfl, by simp [hanchor]⟩
  | some anchor =>
      refine Acts.await (settleAnchor_awaits _ _) hopen (fun _ => rfl) fun txHash => ?_
      exact Fallible.Governed.pure ⟨rfl, fun _ => rfl⟩

theorem recoverJob_acts (h : Stopped initial row) :
    Acts (fun _ _ => True) (fun row' _ => row' = row) row
      (recoverJob initial.id initial.payload) := by
  have hfails : ∀ error, Acts (fun _ _ => True) (fun row' _ => row' = row) row
      (Relayer.fail initial.id error) := by
    intro error
    refine Process.Governed.mono (fail_ends h error) fun row' r hr => ?_
    cases r with
    | ok _ => trivial
    | error e => exact hr.elim
  refine Acts.await recoverPendingAnchorAllowingAlreadyCleared_awaits h.open.1 (fun _ => rfl)
    fun _ => ?_
  cases hpayload : initial.payload with
  | direct payload => exact hfails _
  | chain payload =>
      by_cases hdeposit : payload.command = "DEPOSIT"
      · simp only [if_pos hdeposit]
        refine Fallible.Governed.bind (recoverDeposit_acts h.open.1 payload) ?_
        rintro _ recovery ⟨rfl, htx⟩
        exact Acts.update_return h.open.1 h.id.symm (recovered_advances h hpayload htx)
      · simp only [if_neg hdeposit]
        exact hfails _

theorem settleError_ends (h : Stopped initial row) (error : String) :
    Ends row (settleError initial.id (some initial.payload) error) := by
  unfold settleError
  by_cases hpending : isPendingAnchorError error = true
  · simp only [if_pos hpending]
    refine Fallible.Governed.tryCatch (recoverJob_acts h) ?_
    rintro _ recoveryError rfl
    exact fail_ends h _
  · simp only [if_neg hpending]
    exact fail_ends h error

/-- A job as `process` holds it, beside the job's row. -/
structure Reads (initial job row : Job) : Prop where
  id : job.id = row.id
  actionID : job.actionID = row.actionID
  payload : job.payload = row.payload
  txHash : job.txHash = row.txHash
  same : row.id = initial.id ∧ row.payload = initial.payload
  consistent : row.Consistent

/-- What an update is answered with, beside what it wrote. -/
theorem Reads.written {job : Job} (h : Reads initial job row) (patch : JobPatch) (now : Nat)
    (hconsistent : (patch.write now row).Consistent) :
    Reads initial (patch.apply now (fromRow row)) (patch.write now row) :=
  ⟨rfl, rfl, rfl, rfl, h.same, hconsistent⟩

theorem Reads.stopped {job : Job} (h : Reads initial job row)
    (hstatus : row.status = .processing ∨ row.status = .settling ∨
      row.status = .queued ∧ ∃ payload, row.payload = .direct payload) : Stopped initial row :=
  ⟨h.same.1, h.same.2, h.consistent, hstatus⟩

theorem submitted_advances (hconsistent : row.Consistent) (hstatus : row.status = .queued)
    {actionID : Hash} (hfollowed : ∀ request, row.payload.requestID = some request →
      actionID = request) :
    JobPatch.Advances { actionID := some (some actionID), status := some .submitted } row := by
  refine ⟨?_, ?_, ?_, ?_⟩
  · intro status hs
    cases hs
    rw [hstatus]
    rfl
  · intro _
    exact hconsistent.queued hstatus
  · intro n hn
    cases hn
  · refine hconsistent.onward (by rw [hstatus]; rfl) rfl (by decide) (by decide) rfl rfl ?_ ?_
    · intro id hid
      cases hid
      exact hfollowed
    · simp

/-- After `submit` the job has the id of its action, and may be processed. -/
theorem submit_acts {job : Job} (h : Reads initial job row)
    (hopen : row.status.isRunnable = true) :
    Acts (fun row' job' => Reads initial job' row' ∧ row'.actionID.isSome ∧
        row'.status.isRunnable = true ∧ row'.status.mayBecome .processing = true)
      (fun row' _ => Stopped initial row') row (submit job) := by
  have hqueued : row.actionID = none → row.status = .queued := fun hnone =>
    (h.consistent.accepted hnone).resolve_right (ne_of_isRunnable hopen).1
  unfold submit
  cases haction : job.actionID with
  | some id =>
      have hsome : row.actionID = some id := by rw [← h.actionID, haction]
      refine Fallible.Governed.pure ⟨h, by rw [hsome]; rfl, hopen, ?_⟩
      cases hstatus : row.status with
      | queued => rw [h.consistent.queued hstatus] at hsome; cases hsome
      | confirmed => exact absurd hstatus (ne_of_isRunnable hopen).2
      | failed => exact absurd hstatus (ne_of_isRunnable hopen).1
      | _ => rfl
  | none =>
      have hstatus := hqueued (by rw [← h.actionID, haction])
      cases hpayload : job.payload with
      | chain payload =>
          have hadvances : JobPatch.Advances
              { actionID := some (some payload.requestID), status := some .submitted } row := by
            refine submitted_advances h.consistent hstatus fun request hrequest => ?_
            rw [← h.payload, hpayload] at hrequest
            exact Option.some.inj hrequest
          exact Acts.write _ hopen h.id hadvances fun now =>
            ⟨h.written _ now (hadvances.consistent now), rfl, rfl, rfl⟩
      | direct payload =>
          have hstopped : Stopped initial row :=
            h.stopped (Or.inr (Or.inr ⟨hstatus, payload, by rw [← h.payload, hpayload]⟩))
          refine Acts.await (Awaits.ask rfl) hopen (fun _ => hstopped) fun actionID => ?_
          have hadvances : JobPatch.Advances
              { actionID := some (some actionID), status := some .submitted } row := by
            refine submitted_advances h.consistent hstatus fun request hrequest => ?_
            rw [← h.payload, hpayload] at hrequest
            cases hrequest
          exact Acts.write _ hopen h.id hadvances fun now =>
            ⟨h.written _ now (hadvances.consistent now), rfl, rfl, rfl⟩

/-- A status that an accepted job goes on to. -/
theorem onward_advances (patch : JobPatch) {status : JobStatus} (hconsistent : row.Consistent)
    (hopen : row.status.isRunnable = true) (hstatus : patch.status = some status)
    (hmay : row.status.mayBecome status = true) (hqueued : status ≠ .queued)
    (hfailed : status ≠ .failed) (herror : patch.error = none) (haction : patch.actionID = none)
    (hattempts : patch.attempts = none) (haccepted : row.actionID.isSome)
    (hsettled : status = .confirming ∨ status = .confirmed →
      (findAnchor (patch.response.getD row.response)).isSome →
      (patch.txHash.getD row.txHash).isSome) : patch.Advances row := by
  refine ⟨?_, ?_, ?_, ?_⟩
  · intro status' hs
    rw [hstatus] at hs
    cases hs
    exact hmay
  · intro hsome
    rw [haction] at hsome
    cases hsome
  · intro n hn
    rw [hattempts] at hn
    cases hn
  · refine hconsistent.onward hopen hstatus hqueued hfailed herror
      (by rw [haction]; exact haccepted) ?_ hsettled
    intro id hid
    rw [haction] at hid
    cases hid

/-- What is noted beside the status. -/
theorem noted_advances (patch : JobPatch) (hconsistent : row.Consistent)
    (hopen : row.status.isRunnable = true) (hstatus : patch.status = none)
    (herror : patch.error.getD none = none) (haction : patch.actionID = none)
    (hattempts : ∀ n, patch.attempts = some n → row.attempts ≤ n)
    (hconfirming : row.status ≠ .confirming ∨ patch.response = none ∧ patch.txHash = none) :
    patch.Advances row := by
  refine ⟨?_, ?_, hattempts, hconsistent.noted hopen hstatus herror haction hconfirming⟩
  · intro status hs
    rw [hstatus] at hs
    cases hs
  · intro hsome
    rw [haction] at hsome
    cases hsome

theorem attemptJob_acts {job : Job} (h : Reads initial job row)
    (hopen : row.status.isRunnable = true) :
    Acts (fun _ _ => True) (fun row' _ => Stopped initial row') row (attemptJob job) := by
  refine Fallible.Governed.bind (submit_acts h hopen) ?_
  rintro row job ⟨h, haccepted, hopen, hmay⟩
  have hprocessing := onward_advances { status := some .processing } h.consistent hopen
    rfl hmay (by decide) (by decide) rfl rfl rfl haccepted (by simp)
  refine Acts.update hopen h.id hprocessing fun now => ?_
  have h := h.written _ now (hprocessing.consistent now)
  have hstopped := h.stopped (Or.inl rfl)
  refine Acts.await (Awaits.ask rfl) rfl (fun _ => hstopped) fun action => ?_
  refine Acts.await (requireSuccess_awaits _ _) rfl (fun _ => hstopped) fun _ => ?_
  refine Acts.await (decodeAny_awaits _) rfl (fun _ => hstopped) fun response => ?_
  have hnoted := noted_advances { response := some response } h.consistent rfl rfl rfl rfl
    (by simp) (Or.inl (by simp))
  refine Acts.update rfl h.id hnoted fun now' => ?_
  have h := h.written _ now' (hnoted.consistent now')
  cases hanchor : findAnchor response with
  | none =>
      have hconfirmed := onward_advances { status := some .confirmed } h.consistent rfl
        rfl rfl (by decide) (by decide) rfl rfl rfl haccepted (by simp [hanchor])
      exact Acts.update_return rfl h.id hconfirmed
  | some anchor =>
      have hsettling := onward_advances { status := some .settling } h.consistent rfl
        rfl rfl (by decide) (by decide) rfl rfl rfl haccepted (by simp)
      refine Acts.update rfl h.id hsettling fun now'' => ?_
      have h := h.written _ now'' (hsettling.consistent now'')
      refine Acts.await (settleAnchor_awaits _ _) rfl (fun _ => h.stopped (Or.inr (Or.inl rfl)))
        fun txHash => ?_
      have hconfirming := onward_advances
        { txHash := some (some txHash), status := some .confirming } h.consistent rfl
        rfl rfl (by decide) (by decide) rfl rfl rfl haccepted (by simp)
      refine Acts.update rfl h.id hconfirming fun last => ?_
      have h := h.written _ last (hconfirming.consistent last)
      have hconfirmed := onward_advances { status := some .confirmed } h.consistent rfl
        rfl rfl (by decide) (by decide) rfl rfl rfl haccepted (by simp)
      exact Acts.update_return rfl h.id hconfirmed

/-- **A call of `process` acts on its job's row as the record allows**, whatever FCC and the chain
answer. -/
theorem process_ends (hconsistent : row.Consistent) (hopen : row.status.isRunnable = true) :
    Ends row (process (fromRow row)) := by
  have hbegun := noted_advances
    { attempts := some (row.attempts + 1), error := some none } hconsistent hopen rfl rfl
    rfl (fun n hn => by cases hn; exact Nat.le_succ _) (Or.inr ⟨rfl, rfl⟩)
  refine Fallible.Governed.ask ⟨hopen, ?_⟩ ?_
  · intro id patch heq
    cases heq
    exact ⟨rfl, hbegun⟩
  · rintro x row' ⟨now, rfl, rfl⟩
    have hreads : Reads row (JobPatch.apply _ now (fromRow row)) (JobPatch.write _ now row) :=
      ⟨rfl, rfl, rfl, rfl, ⟨rfl, rfl⟩, hbegun.consistent now⟩
    refine Fallible.Governed.tryCatch (attemptJob_acts hreads hopen) ?_
    intro row' error hstopped
    exact settleError_ends hstopped error

end Program

/-! ### The store -/

/-- Every job has an id of its own and a record that agrees with its status. -/
structure Store.Orderly (s : Store) : Prop where
  ids : (s.jobs.map Job.id).Nodup
  records : ∀ row ∈ s.jobs, row.Consistent

/-- The store has the jobs of the other and those that were added, each in what it has become. -/
def Store.Grows (added : List Job) (s s' : Store) : Prop :=
  List.Forall₂ Job.Precedes (s.jobs ++ added) s'.jobs

/-- The store has the jobs of the other. -/
def Store.Precedes (s s' : Store) : Prop := List.Forall₂ Job.Precedes s.jobs s'.jobs

section Stores

variable {s s' : Store} {row row' : Job} {now : Nat}

theorem precedes_rows (rows : List Job) : List.Forall₂ Job.Precedes rows rows :=
  List.forall₂_same.mpr fun row _ => Job.Precedes.refl row

theorem precedes_trans {a b c : List Job} (h : List.Forall₂ Job.Precedes a b)
    (h' : List.Forall₂ Job.Precedes b c) : List.Forall₂ Job.Precedes a c := by
  induction h generalizing c with
  | nil => exact h'
  | cons hrow _ ih =>
      cases h' with
      | cons hrow' hrest => exact .cons (hrow.trans hrow') (ih hrest)

/-- Each record of the later rows is what one of the earlier has become. -/
theorem precedes_mem {a b : List Job} (h : List.Forall₂ Job.Precedes a b) :
    (∀ row ∈ a, ∃ row' ∈ b, row.Precedes row') ∧ ∀ row' ∈ b, ∃ row ∈ a, row.Precedes row' := by
  induction h with
  | nil => simp
  | cons hrow _ ih =>
      constructor
      · intro row hmem
        rcases List.mem_cons.mp hmem with rfl | hmem
        · exact ⟨_, List.mem_cons_self, hrow⟩
        · obtain ⟨row', hmem', hprecedes⟩ := ih.1 row hmem
          exact ⟨row', List.mem_cons_of_mem _ hmem', hprecedes⟩
      · intro row' hmem
        rcases List.mem_cons.mp hmem with rfl | hmem
        · exact ⟨_, List.mem_cons_self, hrow⟩
        · obtain ⟨row, hmem', hprecedes⟩ := ih.2 row' hmem
          exact ⟨row, List.mem_cons_of_mem _ hmem', hprecedes⟩

theorem Store.Precedes.refl (s : Store) : s.Precedes s := precedes_rows s.jobs

theorem Store.Precedes.trans {s'' : Store} (h : s.Precedes s') (h' : s'.Precedes s'') :
    s.Precedes s'' :=
  precedes_trans h h'

theorem Store.Precedes.grows (h : s.Precedes s') : s.Grows [] s' := by
  unfold Store.Grows
  rw [List.append_nil]
  exact h

theorem Store.Grows.trans {added added' : List Job} {s'' : Store} (h : s.Grows added s')
    (h' : s'.Grows added' s'') : s.Grows (added ++ added') s'' := by
  unfold Store.Grows
  rw [← List.append_assoc]
  exact precedes_trans (List.rel_append h (precedes_rows added')) h'

theorem Store.Orderly.eq (h : s.Orderly) (hrow : row ∈ s.jobs) (hrow' : row' ∈ s.jobs)
    (hid : row'.id = row.id) : row' = row :=
  List.inj_on_of_nodup_map h.ids hrow' hrow hid

theorem Store.Orderly.getJob (h : s.Orderly) (hrow : row ∈ s.jobs) :
    s.getJob row.id = some (fromRow row) := by
  obtain ⟨found, hfind, hid⟩ := find?_of_holds ⟨row, hrow, rfl⟩
  rw [h.eq hrow (List.mem_of_find?_eq_some hfind) hid] at hfind
  rw [Store.getJob, hfind]
  rfl

/-- The store with the row in the place of the job's own. -/
def Store.put (s : Store) (row : Job) : Store :=
  { s with jobs := s.jobs.map fun r => if r.id = row.id then row else r }

theorem Store.Orderly.updateJob (h : s.Orderly) (hrow : row ∈ s.jobs) (patch : JobPatch) :
    s.updateJob row.id patch now =
      .ok (patch.apply now (fromRow row), s.put (patch.write now row)) := by
  unfold Store.updateJob
  rw [h.getJob hrow]
  show Except.ok (_, _) = _
  have hrows : (s.jobs.map fun r =>
      if r.id = row.id then r.overwrite (patch.apply now (fromRow row)) else r) =
      s.jobs.map fun r => if r.id = row.id then patch.write now row else r := by
    refine List.map_congr_left fun r hr => ?_
    by_cases hid : r.id = row.id
    · rw [if_pos hid, if_pos hid, h.eq hrow hr hid]
      rfl
    · rw [if_neg hid, if_neg hid]
  rw [hrows]
  rfl

theorem Store.Orderly.put (h : s.Orderly) (hrow : row ∈ s.jobs) (hid : row'.id = row.id)
    (hprecedes : row.Precedes row') (hconsistent : row'.Consistent) :
    (s.put row').Orderly ∧ s.Precedes (s.put row') ∧ row' ∈ (s.put row').jobs := by
  have hids : (s.put row').jobs.map Job.id = s.jobs.map Job.id := by
    unfold Store.put
    rw [List.map_map]
    refine List.map_congr_left fun r _ => ?_
    by_cases hr : r.id = row'.id
    · simp [hr]
    · simp [hr]
  refine ⟨⟨by rw [hids]; exact h.ids, ?_⟩, ?_, ?_⟩
  · intro r hr
    obtain ⟨r', hr', rfl⟩ := List.mem_map.mp hr
    split
    · exact hconsistent
    · exact h.records r' hr'
  · refine List.forall₂_map_right_iff.mpr (List.forall₂_same.mpr fun r hr => ?_)
    by_cases hsame : r.id = row'.id
    · rw [if_pos hsame, h.eq hrow hr (hsame.trans hid)]
      exact hprecedes
    · rw [if_neg hsame]
      exact Job.Precedes.refl r
  · exact List.mem_map.mpr ⟨row, hrow, if_pos hid.symm⟩

theorem queued_consistent (uuid : String) (now : Nat) (type account : String) (payload : Payload)
    (key : Option String) : (Job.queued uuid now type account payload key).Consistent where
  accepted _ := Or.inl rfl
  queued _ := rfl
  followed := by intro id hid; cases hid
  failed := by simp [Job.queued]
  settled := by simp [Job.queued]

/-- A job that is asked for joins the store, unless its key is there. -/
theorem Store.Orderly.createJob (h : s.Orderly) {uuid type account : String} {payload : Payload}
    {key : Option String} {job : Job}
    (hs : s.createJob uuid now type account payload key = .ok (job, s')) :
    s'.Orderly ∧ (∃ added, (∀ row ∈ added, row = .queued uuid now type account payload key) ∧
        s.Grows added s') ∧ ∀ row ∈ s.jobs, row ∈ s'.jobs := by
  rcases createJob_ok hs with ⟨rfl, _⟩ | ⟨rfl, hfresh, _, rfl⟩
  · exact ⟨h, ⟨[], by simp, (Store.Precedes.refl s').grows⟩, fun _ hrow => hrow⟩
  · refine ⟨⟨?_, ?_⟩, ⟨[_], by simp, precedes_rows _⟩,
      fun row hrow => List.mem_append_left _ hrow⟩
    · rw [List.map_append, List.nodup_append]
      refine ⟨h.ids, List.nodup_singleton _, ?_⟩
      intro id hid id' hid'
      obtain ⟨row, hrow, rfl⟩ := List.mem_map.mp hid
      rw [List.mem_singleton.mp hid']
      exact hfresh row hrow
    · intro row hrow
      rcases List.mem_append.mp hrow with hrow | hrow
      · exact h.records row hrow
      · rw [List.mem_singleton.mp hrow]
        exact queued_consistent uuid now type account payload key

/-- What a retry writes. -/
def retryPatch (row : Job) : JobPatch :=
  { status := some (if row.actionID.isSome then .submitted else .queued), error := some none }

theorem resetForRetry_ok {id : String} {job : Job}
    (hs : s.resetForRetry id now = .ok (job, s')) :
    ∃ row ∈ s.jobs, row.id = id ∧ row.status = .failed ∧
      s.updateJob row.id (retryPatch row) now = .ok (job, s') := by
  unfold Store.resetForRetry at hs
  obtain ⟨current, hcurrent, hs⟩ := bind_eq_ok.mp hs
  obtain ⟨_, hfailed, hs⟩ := bind_eq_ok.mp hs
  obtain ⟨row, hrow, rfl⟩ := Option.map_eq_some_iff.mp (orElse_eq_ok.mp hcurrent)
  have hid : row.id = id := by simpa using List.find?_some hrow
  have hstatus := rejectIf_eq_ok.mp hfailed
  subst hid
  exact ⟨row, List.mem_of_find?_eq_some hrow, rfl, not_not.mp hstatus, hs⟩

theorem retry_precedes (now : Nat) (hconsistent : row.Consistent) (hstatus : row.status = .failed) :
    row.Precedes ((retryPatch row).write now row) ∧
      ((retryPatch row).write now row).Consistent := by
  have hadvances : (retryPatch row).Advances row := by
    refine ⟨?_, ?_, ?_, ?_⟩
    · intro status hs
      cases hs
      rw [hstatus]
      split
      · rfl
      · rfl
    · intro hsome
      cases hsome
    · intro n hn
      cases hn
    · intro now
      cases haction : row.actionID with
      | none => constructor <;> simp [retryPatch, haction]
      | some id =>
          constructor
          · simp [retryPatch, haction]
          · simp [retryPatch, haction]
          · simpa [retryPatch] using hconsistent.followed
          · simp [retryPatch, haction]
          · simp [retryPatch, haction]
  exact ⟨hadvances.precedes (by rw [hstatus]; decide) now, hadvances.consistent now⟩

/-- A retry is of a job that has failed, and takes it back to where it was accepted or not. -/
theorem Store.Orderly.resetForRetry (h : s.Orderly) {id : String} {job : Job}
    (hs : s.resetForRetry id now = .ok (job, s')) :
    s'.Orderly ∧ s.Precedes s' ∧ ∀ row ∈ s.jobs, row.status ≠ .failed → row ∈ s'.jobs := by
  obtain ⟨row, hrow, _, hstatus, hupdate⟩ := resetForRetry_ok hs
  rw [h.updateJob hrow] at hupdate
  cases hupdate
  obtain ⟨hprecedes, hconsistent⟩ := retry_precedes now (h.records row hrow) hstatus
  obtain ⟨horderly, hbefore, _⟩ := h.put hrow (write_id _ _ _) hprecedes hconsistent
  refine ⟨horderly, hbefore, fun r hr hopen => ?_⟩
  refine List.mem_map.mpr ⟨r, hr, if_neg fun hid => ?_⟩
  rw [h.eq hrow hr hid] at hopen
  exact hopen hstatus

end Stores

/-! ### Turns -/

/-- A call of `process` on the row. -/
abbrev Works (row : Job) (p : Processing) : Prop :=
  Process.Governed rowEffect rowGuard (Fallible.result (fun _ _ => True) fun _ _ => False) row p

/-- A turn of `process` takes the records forward, and leaves the call at work on the row. -/
theorem turn_works (now : Nat) {p : Processing} :
    ∀ {s : Store} {row : Job}, s.Orderly → row ∈ s.jobs → Works row p →
      (turn now s p).1.Orderly ∧ s.Precedes (turn now s p).1 ∧
        ∃ row' ∈ (turn now s p).1.jobs, row'.id = row.id ∧ Works row' (turn now s p).2 := by
  induction p with
  | done r =>
      intro s row hs hrow hworks
      exact ⟨hs, Store.Precedes.refl s, row, hrow, rfl, hworks⟩
  | call r k ih =>
      intro s row hs hrow hworks
      by_cases hupdate : r.isUpdate = true
      · cases r with
        | update id patch =>
            obtain ⟨⟨hopen, hguard⟩, hnext⟩ := hworks
            obtain ⟨rfl, hadvances⟩ := hguard id patch rfl
            have hprecedes := hadvances.precedes (ne_of_isRunnable hopen).2 now
            obtain ⟨hs', hbefore, hrow'⟩ :=
              hs.put hrow (write_id _ _ _) hprecedes (hadvances.consistent now)
            have hturn : turn now s (.call (.update row.id patch) k) =
                turn now (s.put (patch.write now row))
                  (k (.ok (patch.apply now (fromRow row)))) := by
              simp only [turn, hs.updateJob hrow]
            obtain ⟨hs'', hafter, row', hmem, hid, hworks'⟩ :=
              ih _ hs' hrow' (hnext _ _ ⟨now, rfl, rfl⟩)
            rw [hturn]
            exact ⟨hs'', hbefore.trans hafter, row', hmem, hid, hworks'⟩
        | _ => cases hupdate
      · have hturn : turn now s (.call r k) = (s, .call r k) := by
          cases r with
          | update id patch => exact absurd rfl hupdate
          | _ => rfl
        rw [hturn]
        exact ⟨hs, Store.Precedes.refl s, row, hrow, rfl, hworks⟩

/-- A turn that is cut short takes them forward as far as it went. -/
theorem turnCut_forward (now : Nat) {writes : Nat} :
    ∀ {p : Processing} {s : Store} {row : Job}, s.Orderly → row ∈ s.jobs → Works row p →
      (turnCut now writes s p).Orderly ∧ s.Precedes (turnCut now writes s p) := by
  induction writes with
  | zero => exact fun hs _ _ => ⟨hs, Store.Precedes.refl _⟩
  | succ writes ih =>
      intro p s row hs hrow hworks
      cases p with
      | done r => exact ⟨hs, Store.Precedes.refl s⟩
      | call r k =>
          cases r with
          | update id patch =>
              obtain ⟨⟨hopen, hguard⟩, hnext⟩ := hworks
              obtain ⟨rfl, hadvances⟩ := hguard id patch rfl
              have hprecedes := hadvances.precedes (ne_of_isRunnable hopen).2 now
              obtain ⟨hs', hbefore, hrow'⟩ :=
                hs.put hrow (write_id _ _ _) hprecedes (hadvances.consistent now)
              obtain ⟨hs'', hafter⟩ := ih hs' hrow' (hnext _ _ ⟨now, rfl, rfl⟩)
              simp only [turnCut, hs.updateJob hrow]
              exact ⟨hs'', hbefore.trans hafter⟩
          | _ => exact ⟨hs, Store.Precedes.refl s⟩

/-! ### The orchestrator -/

/-- What holds of the orchestrator between two turns. -/
structure Forward (o : Orchestrator) : Prop where
  store : o.store.Orderly
  working : ∀ d ∈ o.drains, ∃ row ∈ o.store.jobs, row.id = d.job ∧ Works row d.process

section Orchestrators

variable {o o' : Orchestrator} {now tie : Nat}

theorem Turning.proceed_forward (hturning : Turning o) (hstore : o.store.Orderly) {row : Job}
    (hrow : row ∈ o.store.jobs) {p : Processing} (hworks : Works row p) :
    Forward (o.proceed now row.id p) ∧ o.store.Precedes (o.proceed now row.id p).store := by
  obtain ⟨hs, hprecedes, row', hmem, hid, hworks'⟩ := turn_works now hstore hrow hworks
  refine ⟨⟨hs, fun d hd => ?_⟩, hprecedes⟩
  simp only [Orchestrator.proceed, hturning.alone, List.nil_append, List.mem_singleton] at hd
  rw [hd]
  exact ⟨row', hmem, hid, hworks'⟩

/-- With no job left the orchestrator is as it was, or drains once more. -/
theorem Turning.nextJob_forward (hturning : Turning o) (hstore : o.store.Orderly)
    {exhausted : Orchestrator}
    (hexhausted : Forward exhausted ∧ o.store.Precedes exhausted.store) :
    Forward (o.nextJob now tie exhausted) ∧
      o.store.Precedes (o.nextJob now tie exhausted).store := by
  unfold Orchestrator.nextJob
  cases hnext : o.store.nextRunnableJob tie with
  | none => exact hexhausted
  | some job =>
      obtain ⟨row, hrow, hopen, rfl, _⟩ := nextRunnableJob_eq_some hnext
      exact hturning.proceed_forward hstore hrow (process_ends (hstore.records row hrow) hopen)

theorem forward_idle (hstore : o.store.Orderly) (halone : o.drains = []) : Forward o :=
  ⟨hstore, by simp [halone]⟩

theorem Turning.round_forward (hturning : Turning o) (hstore : o.store.Orderly) :
    Forward (o.round now tie) ∧ o.store.Precedes (o.round now tie).store := by
  have hcleared : Turning { o with wakeRequested := false } :=
    ⟨hturning.running, hturning.alone, hturning.settled⟩
  exact hcleared.nextJob_forward hstore
    ⟨forward_idle (by exact hstore) hturning.alone, Store.Precedes.refl _⟩

theorem Turning.resume_forward (hturning : Turning o) (hstore : o.store.Orderly) :
    Forward (o.resume now tie) ∧ o.store.Precedes (o.resume now tie).store := by
  refine hturning.nextJob_forward hstore ?_
  split
  · exact hturning.round_forward hstore
  · exact ⟨forward_idle (by exact hstore) hturning.alone, Store.Precedes.refl _⟩

theorem wake_forward (now tie : Nat) (hsound : Sound False o) (h : Forward o) :
    Forward (o.wake now tie) ∧ o.store.Precedes (o.wake now tie).store := by
  unfold Orchestrator.wake
  cases hrunning : o.running with
  | true => exact ⟨⟨h.store, h.working⟩, Store.Precedes.refl _⟩
  | false =>
      exact Turning.round_forward (o := { o with wakeRequested := true, running := true })
        ⟨rfl, hsound.drains_nil hrunning, hsound.settled⟩ h.store

/-- A store that keeps the open jobs as they are takes the place of the other. -/
theorem woken_forward (hsound : Sound False o) (h : Forward o)
    {x : Except StoreError (Job × Store)} {inserts : Job → Prop}
    (hx : ∀ job store, x = .ok (job, store) → o.store.Keeps store ∧ store.Orderly ∧
      (∃ added, (∀ row ∈ added, inserts row) ∧ o.store.Grows added store) ∧
      ∀ row ∈ o.store.jobs, row.status ≠ .failed → row ∈ store.jobs)
    (hstep : o.woken now tie x = .ok o') :
    Forward o' ∧ ∃ added, (∀ row ∈ added, inserts row) ∧ o.store.Grows added o'.store := by
  cases x with
  | error cause => cases hstep
  | ok result =>
      cases hstep
      obtain ⟨hkeeps, hstore, ⟨added, hadded, hgrows⟩, hsame⟩ := hx result.1 result.2 rfl
      have hforward : Forward { o with store := result.2 } := by
        refine ⟨hstore, fun d hd => ?_⟩
        obtain ⟨row, hrow, hid, hworks⟩ := h.working d hd
        cases hp : d.process with
        | done r =>
            obtain ⟨row', hrow', hbecome⟩ :=
              (precedes_mem hgrows).1 row (List.mem_append_left _ hrow)
            rw [hp] at hworks
            exact ⟨row', hrow', hbecome.id.trans hid, hworks⟩
        | call r k =>
            rw [hp] at hworks
            exact ⟨row, hsame row hrow (ne_of_isRunnable hworks.1.1).1, hid, hworks⟩
      obtain ⟨hwoken, hafter⟩ := wake_forward now tie (hsound.store hkeeps) hforward
      exact ⟨hwoken, added, hadded, precedes_trans hgrows hafter⟩

theorem created_forward (h : Forward o) {uuid type account : String} {payload : Payload}
    {key : Option String} (job : Job) (store : Store)
    (hs : o.store.createJob uuid now type account payload key = .ok (job, store)) :
    o.store.Keeps store ∧ store.Orderly ∧
      (∃ added, (∀ row ∈ added, row = .queued uuid now type account payload key) ∧
        o.store.Grows added store) ∧
      ∀ row ∈ o.store.jobs, row.status ≠ .failed → row ∈ store.jobs := by
  obtain ⟨hstore, hadded, hsame⟩ := h.store.createJob hs
  exact ⟨createJob_keeps hs, hstore, hadded, fun row hrow _ => hsame row hrow⟩

theorem reset_forward (h : Forward o) {id : String} (job : Job) (store : Store)
    (hs : o.store.resetForRetry id now = .ok (job, store)) :
    o.store.Keeps store ∧ store.Orderly ∧
      (∃ added, (∀ row ∈ added, False) ∧ o.store.Grows added store) ∧
      ∀ row ∈ o.store.jobs, row.status ≠ .failed → row ∈ store.jobs := by
  obtain ⟨hstore, hprecedes, hsame⟩ := h.store.resetForRetry hs
  exact ⟨resetForRetry_keeps hs, hstore, ⟨[], by simp, hprecedes.grows⟩, hsame⟩

/-- What is awaited leaves the row as it is, and the call at work on it. -/
theorem Forward.answer (h : Forward o) (hsound : Sound False o) {i : Nat} {d : Drain} {r : Ask}
    {k : Answered r → Processing} (hd : o.drains[i]? = some d) (hp : d.process = .call r k)
    (x : Answered r) : ∃ row ∈ o.store.jobs, row.id = d.job ∧ Works row (k x) := by
  have hmem := List.mem_of_getElem? hd
  obtain ⟨row, hrow, hid, hworks⟩ := h.working d hmem
  have hawaited := (hsound.standing d hmem).2
  rw [hp] at hworks hawaited
  refine ⟨row, hrow, hid, hworks.2 x row ?_⟩
  cases r with
  | update id patch => cases hawaited.1
  | _ => rfl

theorem answered_forward (hsound : Sound False o) (h : Forward o) {i : Nat}
    {answer : (r : Ask) → Answered r} (hstep : o.answered now i answer = .ok o') :
    Forward o' ∧ o.store.Precedes o'.store := by
  obtain ⟨d, r, k, hd, hp, rfl⟩ := Orchestrator.answered_ok hstep
  obtain ⟨row, hrow, hid, hworks⟩ := h.answer hsound hd hp (answer r)
  rw [← hid]
  exact (hsound.turning hd).proceed_forward (o := o.leave i) h.store hrow hworks

theorem processed_forward (hsound : Sound False o) (h : Forward o) {i : Nat}
    (hstep : o.processed now tie i = .ok o') : Forward o' ∧ o.store.Precedes o'.store := by
  obtain ⟨d, r, hd, hp, hresumed⟩ := Orchestrator.processed_ok hstep
  have hstands := (hsound.standing d (List.mem_of_getElem? hd)).2
  rw [hp] at hstands
  rcases hresumed with ⟨_, rfl⟩ | ⟨e, rfl, _⟩
  · exact (hsound.turning hd).resume_forward h.store
  · cases hstands

/-- The job that a turn asks for. -/
def Turn.Inserts (t : Turn) (job : Job) : Prop :=
  match t.entry with
  | .enqueueDirect uuid account command ciphertext =>
      job = .queued uuid t.now command account (.direct { command, ciphertext }) none
  | .enqueueChain uuid event =>
      job = .queued uuid t.now event.command event.account
        (.chain { command := event.command, requestID := event.requestID
                  blockNumber := event.blockNumber }) (some event.externalKey)
  | _ => False

/-- **A turn of the orchestrator takes every record forward**, and adds a job only when it is asked
for one. -/
theorem step_forward {t : Turn} (hsound : Sound False o) (h : Forward o)
    (hstep : o.step t = .ok o') :
    Forward o' ∧ ∃ added, (∀ job ∈ added, t.Inserts job) ∧ o.store.Grows added o'.store := by
  have hquiet : ∀ {o' : Orchestrator}, Forward o' ∧ o.store.Precedes o'.store →
      Forward o' ∧ ∃ added, (∀ job ∈ added, t.Inserts job) ∧ o.store.Grows added o'.store :=
    fun h' => ⟨h'.1, [], by simp, h'.2.grows⟩
  unfold Orchestrator.step at hstep
  cases hentry : t.entry with
  | enqueueDirect uuid account command ciphertext =>
      simp only [hentry] at hstep
      obtain ⟨hforward, added, hadded, hgrows⟩ :=
        woken_forward hsound h (created_forward h) hstep
      exact ⟨hforward, added, by simpa only [Turn.Inserts, hentry] using hadded, hgrows⟩
  | enqueueChain uuid event =>
      simp only [hentry] at hstep
      obtain ⟨hforward, added, hadded, hgrows⟩ :=
        woken_forward hsound h (created_forward h) hstep
      exact ⟨hforward, added, by simpa only [Turn.Inserts, hentry] using hadded, hgrows⟩
  | retry id =>
      simp only [hentry] at hstep
      obtain ⟨hforward, added, hadded, hgrows⟩ := woken_forward hsound h (reset_forward h) hstep
      exact ⟨hforward, added, fun job hjob => (hadded job hjob).elim, hgrows⟩
  | wake =>
      simp only [hentry] at hstep
      cases hstep
      exact hquiet (wake_forward t.now t.tie hsound h)
  | answered i answer => simp only [hentry] at hstep; exact hquiet (answered_forward hsound h hstep)
  | returned i => simp only [hentry] at hstep; exact hquiet (processed_forward hsound h hstep)

/-! ### A turn that is cut short -/

theorem nextCut_forward (o : Orchestrator) (now tie writes : Nat) (hstore : o.store.Orderly) :
    (o.nextCut now tie writes).Orderly ∧ o.store.Precedes (o.nextCut now tie writes) := by
  unfold Orchestrator.nextCut
  cases hnext : o.store.nextRunnableJob tie with
  | none => exact ⟨hstore, Store.Precedes.refl _⟩
  | some job =>
      obtain ⟨row, hrow, hopen, rfl, _⟩ := nextRunnableJob_eq_some hnext
      exact turnCut_forward now hstore hrow (process_ends (hstore.records row hrow) hopen)

theorem wokenCut_forward (hstore : o.store.Orderly) {x : Except StoreError (Job × Store)}
    (hx : ∀ job store, x = .ok (job, store) →
      store.Orderly ∧ ∃ added, o.store.Grows added store) (writes : Nat) :
    (o.wokenCut now tie writes x).Orderly ∧
      ∃ added, o.store.Grows added (o.wokenCut now tie writes x) := by
  cases x with
  | error cause => exact ⟨hstore, [], (Store.Precedes.refl _).grows⟩
  | ok result =>
      obtain ⟨hwritten, added, hgrows⟩ := hx result.1 result.2 rfl
      cases writes with
      | zero => exact ⟨hstore, [], (Store.Precedes.refl _).grows⟩
      | succ writes =>
          unfold Orchestrator.wokenCut
          dsimp only
          split
          · exact ⟨hwritten, added, hgrows⟩
          · obtain ⟨hcut, hafter⟩ :=
              nextCut_forward { o with store := result.2 } now tie writes hwritten
            exact ⟨hcut, added, precedes_trans hgrows hafter⟩

/-- **Wherever the relayer stops, its records have only moved forward.** -/
theorem cut_forward (hsound : Sound False o) (h : Forward o) (writes : Nat) (t : Turn) :
    (o.cut writes t).Orderly ∧ ∃ added, o.store.Grows added (o.cut writes t) := by
  have hquiet : ∀ {s : Store}, s.Orderly ∧ o.store.Precedes s →
      s.Orderly ∧ ∃ added, o.store.Grows added s := fun hs => ⟨hs.1, [], hs.2.grows⟩
  have hstays : o.store.Orderly ∧ o.store.Precedes o.store := ⟨h.store, Store.Precedes.refl _⟩
  unfold Orchestrator.cut
  cases t.entry with
  | enqueueDirect uuid account command ciphertext =>
      refine wokenCut_forward h.store (fun job store hs => ?_) writes
      obtain ⟨hstore, ⟨added, _, hgrows⟩, _⟩ := h.store.createJob hs
      exact ⟨hstore, added, hgrows⟩
  | enqueueChain uuid event =>
      refine wokenCut_forward h.store (fun job store hs => ?_) writes
      obtain ⟨hstore, ⟨added, _, hgrows⟩, _⟩ := h.store.createJob hs
      exact ⟨hstore, added, hgrows⟩
  | retry id =>
      refine wokenCut_forward h.store (fun job store hs => ?_) writes
      obtain ⟨hstore, hprecedes, _⟩ := h.store.resetForRetry hs
      exact ⟨hstore, [], hprecedes.grows⟩
  | wake =>
      dsimp only
      split
      · exact hquiet hstays
      · exact hquiet (nextCut_forward o t.now t.tie writes h.store)
  | answered i answer =>
      dsimp only
      split
      · next r k hprocess =>
        obtain ⟨d, hd, hp⟩ := Option.map_eq_some_iff.mp hprocess
        obtain ⟨row, hrow, _, hworks⟩ := h.answer hsound hd hp (answer r)
        exact hquiet (turnCut_forward t.now h.store hrow hworks)
      · exact hquiet hstays
  | returned i =>
      dsimp only
      split
      · exact hquiet (nextCut_forward o t.now t.tie writes h.store)
      · exact hquiet hstays

end Orchestrators

end QuietLine.Relayer

namespace QuietLine

open Relayer

/-! ### Runs of the deployment -/

/-- What holds of the relayer in every state of a deployment. -/
structure Deployment.Forward (d : Deployment) : Prop where
  sound : Relayer.Sound False d.relayer
  forward : Relayer.Forward d.relayer

section Runs

variable {D : Site} {d d' : Deployment}

theorem relayer_step {m : DeploymentMove} (hstep : d.step D m = .ok d') :
    d'.relayer = d.relayer ∨ (∃ t, d.relayer.step t = .ok d'.relayer) ∨
      ∃ store, d'.relayer = { store } ∧
        (store = d.relayer.store ∨ ∃ writes t, store = d.relayer.cut writes t) := by
  cases m with
  | system m =>
      obtain ⟨world, _, rfl⟩ := move_ok hstep
      exact Or.inl rfl
  | turn t =>
      obtain ⟨_, relayer, hrelayer, rfl⟩ := turn_ok hstep
      exact Or.inr (Or.inl ⟨t, hrelayer⟩)
  | accept i id =>
      obtain ⟨_, _, world, _, _, _, _, rfl⟩ := accept_ok hstep
      exact Or.inl rfl
  | serve i now served =>
      obtain ⟨_, _, relayer, _, _, hrelayer, rfl⟩ := serve_ok hstep
      exact Or.inr (Or.inl ⟨{ now, entry := .answered i _ }, hrelayer⟩)
  | fail i now error =>
      obtain ⟨relayer, hrelayer, rfl⟩ := answered_ok hstep
      exact Or.inr (Or.inl ⟨{ now, entry := .answered i _ }, hrelayer⟩)
  | crash =>
      cases hstep
      exact Or.inr (Or.inr ⟨_, rfl, Or.inl rfl⟩)
  | torn writes m =>
      cases hstep
      refine Or.inr (Or.inr ⟨_, rfl, ?_⟩)
      unfold Deployment.cut
      split
      · split
        · exact Or.inl rfl
        · exact Or.inr ⟨_, _, rfl⟩
      · split
        · exact Or.inl rfl
        · split
          · exact Or.inr ⟨_, _, rfl⟩
          · exact Or.inl rfl
      · exact Or.inr ⟨_, _, rfl⟩
      · exact Or.inl rfl

/-- The later of two states, with the store that the other's has become. -/
def Deployment.Onward (d d' : Deployment) : Prop :=
  d'.Forward ∧ ∃ added, d.relayer.store.Grows added d'.relayer.store

theorem Deployment.Forward.step (h : d.Forward) {m : DeploymentMove}
    (hstep : d.step D m = .ok d') : d.Onward d' := by
  rcases relayer_step hstep with heq | ⟨t, ht⟩ | ⟨store, heq, hstore⟩
  · exact ⟨⟨by rw [heq]; exact h.sound, by rw [heq]; exact h.forward⟩,
      [], by rw [heq]; exact (Store.Precedes.refl _).grows⟩
  · obtain ⟨hforward, added, _, hgrows⟩ := step_forward h.sound h.forward ht
    exact ⟨⟨Relayer.sound_step h.sound ht, hforward⟩, added, hgrows⟩
  · have hcut : store.Orderly ∧ ∃ added, d.relayer.store.Grows added store := by
      rcases hstore with rfl | ⟨writes, t, rfl⟩
      · exact ⟨h.forward.store, [], (Store.Precedes.refl _).grows⟩
      · exact cut_forward h.sound h.forward writes t
    obtain ⟨horderly, added, hgrows⟩ := hcut
    exact ⟨⟨by rw [heq]; exact Relayer.sound_started _, by rw [heq]; exact forward_idle horderly rfl⟩,
      added, by rw [heq]; exact hgrows⟩

theorem Deployment.Forward.run (h : d.Forward) (moves : List DeploymentMove) :
    d.Onward (Machine.run (Deployment.step D) d moves) := by
  refine Machine.invariant ?_ ⟨h, [], (Store.Precedes.refl _).grows⟩ moves
  rintro s m s' ⟨hs, added, hgrows⟩ hstep
  obtain ⟨hforward, more, hgrows'⟩ := hs.step hstep
  exact ⟨hforward, added ++ more, hgrows.trans hgrows'⟩

theorem Deployment.forward_started : Deployment.Forward {} where
  sound := Relayer.sound_started {}
  forward := forward_idle ⟨List.nodup_nil, by simp⟩ rfl

end Runs

/-- **A job's record only moves forward.**  Take any run of a deployment, with calls that fail,
crashes of the relayer, between two turns or in one, retries and every answer FCC and the chain may
give, and any longer run.
The later store has the jobs of the earlier, in their places, and those added since: every record
has kept its key, its account and what it was enqueued with, the id of the action that FCC accepted
for it, once it had one, has never been replaced, its status has only gone where one write may take
it, and a confirmed job is as it was. -/
theorem job_records_move_forward (D : Site) (moves more : List DeploymentMove) :
    ∃ added, List.Forall₂ Job.Precedes ((deploymentAfter D moves).relayer.store.jobs ++ added)
      (deploymentAfter D (moves ++ more)).relayer.store.jobs := by
  have hafter := (Deployment.forward_started.run (D := D) moves).1
  unfold deploymentAfter
  rw [Machine.run_append]
  obtain ⟨_, added, hgrows⟩ := hafter.run more
  exact ⟨added, hgrows⟩

/-- **A job's record agrees with its status.**  In every state of every run of a deployment, each
job has an id of its own; FCC has accepted every job that is neither queued nor failed, an
instruction from the chain under its own id; a job has an error exactly when it has failed; and a
job that is confirmed with a settlement has a transaction hash recorded. -/
theorem job_records_consistent (D : Site) (moves : List DeploymentMove) :
    ((deploymentAfter D moves).relayer.store.jobs.map Job.id).Nodup ∧
      ∀ row ∈ (deploymentAfter D moves).relayer.store.jobs, row.Consistent := by
  have hafter := (Deployment.forward_started.run (D := D) moves).1
  exact ⟨hafter.forward.store.ids, hafter.forward.store.records⟩

end QuietLine
