/-
The orchestrator loses no wake-up.

`drain` runs from one await to the next, and while it runs `running` is set, so there
is one of it at a time.  It clears `running` only in a turn in which it has just seen
the queue empty.  A request that comes later finds `running` clear and drains anew;
one that comes earlier is seen, because the queue is read again after every await.
That `process` leaves its job confirmed or failed is a discipline of the program
(`process_settles`): whatever FCC and the chain answer, its last act is that update.
-/
import QuietLine.Relayer.Orchestrator

namespace QuietLine.Relayer

open Process Outcome

/-! ### Programs that leave the store alone -/

def Ask.isUpdate : Ask → Bool
  | update .. => true
  | _ => false

/-- The program asks for no update of a job. -/
def Awaits {α : Type} (x : Relay α) : Prop :=
  ∀ t, Fallible.Obeys (fun _ r => r.isUpdate = false) (fun _ _ => True) (fun _ _ => True) t x

section Awaits

variable {α β : Type}

theorem Awaits.pure (a : α) : Awaits (Pure.pure a : Relay α) := fun _ => trivial

theorem Awaits.throw (e : String) : Awaits (throw e : Relay α) := fun _ => trivial

theorem Awaits.ofExcept (x : Except String α) : Awaits (Fallible.ofExcept x : Relay α) := by
  intro t
  cases x with
  | ok a => trivial
  | error e => trivial

theorem Awaits.bind {x : Relay α} {f : α → Relay β} (hx : Awaits x) (hf : ∀ a, Awaits (f a)) :
    Awaits (x >>= f) :=
  fun t => Fallible.Obeys.bind (hx t) fun t a _ => hf a t

theorem Awaits.tryCatch {x : Relay α} {handler : String → Relay α} (hx : Awaits x)
    (hhandler : ∀ e, Awaits (handler e)) : Awaits (tryCatch x handler) :=
  fun t => Fallible.Obeys.tryCatch (hx t) fun t e _ => hhandler e t

theorem Awaits.ask {r : Ask} (h : r.isUpdate = false) : Awaits (Relay.ask r) := by
  intro t
  refine Fallible.Obeys.ask h ?_
  intro x
  exact Awaits.ofExcept x _

theorem requireSuccess_awaits (what : String) (result : ActionResult) :
    Awaits (requireSuccess what result) :=
  Awaits.ofExcept _

theorem submitJson_awaits (command : String) (payload : JsonPayload) :
    Awaits (submitJson command payload) :=
  Awaits.ask rfl

theorem decodeAny_awaits (data : Option (Except String Reply)) : Awaits (decodeAny data) := by
  cases data with
  | none => exact Awaits.pure none
  | some data => exact (Awaits.ofExcept data).bind fun reply => Awaits.pure (some reply)

theorem settlementTransaction_awaits (settlementID : Hash) :
    Awaits (settlementTransaction settlementID) := by
  refine (Awaits.ask rfl).bind fun used => ?_
  cases used with
  | false => exact Awaits.pure none
  | true =>
      refine (Awaits.ask rfl).bind fun logs => ?_
      cases hlast : List.getLast? logs with
      | none => exact Awaits.throw _
      | some hash => exact Awaits.pure (some hash)

theorem execute_awaits (anchor : Settlement) : Awaits (execute anchor) := by
  refine (settlementTransaction_awaits _).bind fun existing => ?_
  cases existing with
  | some hash => exact Awaits.pure hash
  | none =>
      refine (Awaits.ask rfl).tryCatch fun error => ?_
      refine (settlementTransaction_awaits _).bind fun recovered => ?_
      cases recovered with
      | some hash => exact Awaits.pure hash
      | none => exact Awaits.throw error

theorem confirmAnchor_awaits (anchor : Settlement) : Awaits (confirmAnchor anchor) :=
  (submitJson_awaits _ _).bind fun _ => (Awaits.ask rfl).bind fun _ => requireSuccess_awaits _ _

theorem settleAnchor_awaits (anchor : Settlement) (existing : Option Hash) :
    Awaits (settleAnchor anchor existing) := by
  cases existing with
  | some txHash => exact (confirmAnchor_awaits anchor).bind fun _ => Awaits.pure txHash
  | none =>
      exact (execute_awaits anchor).bind fun txHash =>
        (confirmAnchor_awaits anchor).bind fun _ => Awaits.pure txHash

theorem anchorState_awaits : Awaits anchorState := by
  refine (Awaits.ask rfl).bind fun sequenceFirst => ?_
  cases sequenceFirst with
  | false =>
      exact (Awaits.ask rfl).bind fun root => (Awaits.ask rfl).bind fun sequence =>
        Awaits.pure (sequence, root)
  | true =>
      exact (Awaits.ask rfl).bind fun sequence => (Awaits.ask rfl).bind fun root =>
        Awaits.pure (sequence, root)

theorem settleRecovered_awaits (settlement : Settlement) (state : Nat × Hash) :
    Awaits (settleRecovered settlement state) := by
  refine (Awaits.ofExcept _).bind fun _ => ?_
  split
  · exact (execute_awaits settlement).bind fun _ => confirmAnchor_awaits settlement
  · exact confirmAnchor_awaits settlement

theorem recoverPendingAnchor_awaits : Awaits recoverPendingAnchor :=
  (submitJson_awaits _ _).bind fun _ => (Awaits.ask rfl).bind fun _ =>
    (requireSuccess_awaits _ _).bind fun _ => (Awaits.ofExcept _).bind fun _ =>
      anchorState_awaits.bind fun _ => (Awaits.ofExcept _).bind fun _ =>
        settleRecovered_awaits _ _

theorem recoverPendingAnchorAllowingAlreadyCleared_awaits :
    Awaits recoverPendingAnchorAllowingAlreadyCleared := by
  refine recoverPendingAnchor_awaits.tryCatch fun error => ?_
  split
  · exact Awaits.pure ()
  · exact Awaits.throw error

theorem depositForRequest_awaits (requestID : Hash) (blockNumber : Nat) :
    Awaits (depositForRequest requestID blockNumber) := by
  refine (Awaits.ask rfl).bind fun logs => ?_
  cases hfound : List.findSome? (VaultLog.depositFor requestID) logs with
  | none => exact Awaits.throw _
  | some deposit => exact Awaits.pure deposit

theorem recoverDeposit_awaits (payload : ChainPayload) : Awaits (recoverDeposit payload) := by
  refine (depositForRequest_awaits _ _).bind fun deposit => ?_
  refine (submitJson_awaits _ _).bind fun recoveryID => (Awaits.ask rfl).bind fun recovery => ?_
  refine (requireSuccess_awaits _ _).bind fun _ => (decodeAny_awaits _).bind fun response => ?_
  cases findAnchor response with
  | none => exact Awaits.pure _
  | some anchor => exact (settleAnchor_awaits anchor none).bind fun txHash => Awaits.pure _

end Awaits

/-! ### What a call of `process` does to its job -/

abbrev Exchange := Process.Exchange Ask Answered
abbrev Trace := Process.Trace Ask Answered

/-- An update is answered with the job. -/
def Keeps (id : String) : Exchange → Prop
  | ⟨.update _ _, answer⟩ => ∃ job : Job, answer = .ok job ∧ job.id = id
  | _ => True

/-- So far every update was. -/
def Kept (id : String) (t : Trace) : Prop := ∀ x ∈ t, Keeps id x

/-- Only this job is updated. -/
def OnlyUpdates (id : String) (t : Trace) (r : Ask) : Prop :=
  Kept id t → ∀ id' patch, r = .update id' patch → id' = id

/-- The patch ends the work on a job. -/
def JobPatch.settles (patch : JobPatch) : Prop :=
  patch.status = some .confirmed ∨ patch.status = some .failed

/-- The last exchange settled the job. -/
def LastSettles : Trace → Prop
  | ⟨.update _ patch, _⟩ :: _ => patch.settles
  | _ => False

/-- The program updates this job only, and by its last update settles it; what it throws meets
`fail`. -/
def Settling (id : String) (fail : Trace → String → Prop) (t : Trace) (x : Relay Unit) : Prop :=
  Fallible.Obeys (OnlyUpdates id) (fun t _ => Kept id t → LastSettles t) fail t x

/-- Nothing is thrown. -/
def Throwless (id : String) (t : Trace) (_ : String) : Prop := Kept id t → False

section Settling

variable {id : String} {fail : Trace → String → Prop} {t : Trace} {α : Type}

theorem Kept.tail {x : Exchange} (h : Kept id (x :: t)) : Kept id t :=
  fun y hy => h y (List.mem_cons_of_mem x hy)

theorem Kept.cons {r : Ask} {answer : Answered r} (h : Kept id t) (hr : r.isUpdate = false) :
    Kept id (⟨r, answer⟩ :: t) := by
  intro x hx
  rcases List.mem_cons.mp hx with rfl | hx
  · cases r with
    | update id patch => cases hr
    | _ => trivial
  · exact h x hx

/-- Once the job is missing nothing is asked of a program. -/
theorem Settling.missing (hfail : ∀ t e, ¬ Kept id t → fail t e) (x : Relay Unit) {t : Trace}
    (h : ¬ Kept id t) : Settling id fail t x := by
  refine Process.Obeys.vacuous (V := fun t => ¬ Kept id t) ?_ ?_ ?_ h
  · exact fun x t hmissing hkept => hmissing hkept.tail
  · exact fun t r hmissing hkept => absurd hkept hmissing
  · intro t r hmissing
    cases r with
    | ok a => exact fun hkept => absurd hkept hmissing
    | error e => exact hfail t e hmissing

/-- After an update the program goes on with the job, or with what was thrown instead. -/
theorem Settling.perform {patch : JobPatch} {f : Except String Job → Relay Unit}
    (hfail : ∀ t e, ¬ Kept id t → fail t e)
    (hf : ∀ job : Job, job.id = id →
      Settling id fail (⟨.update id patch, .ok job⟩ :: t) (f (.ok job))) :
    Settling id fail t (Fallible.perform (Ask.update id patch) >>= f) := by
  refine ⟨fun _ id' patch' heq => (Ask.update.inj heq).1.symm, fun answer => ?_⟩
  by_cases hkept : Keeps id ⟨.update id patch, answer⟩
  · obtain ⟨job, rfl, hid⟩ := hkept
    exact hf job hid
  · exact Settling.missing hfail (f answer) fun h => hkept (h _ List.mem_cons_self)

theorem Settling.update {patch : JobPatch} {f : Job → Relay Unit}
    (hfail : ∀ t e, ¬ Kept id t → fail t e)
    (hf : ∀ job : Job, job.id = id →
      Settling id fail (⟨.update id patch, .ok job⟩ :: t) (f job)) :
    Settling id fail t (Relayer.update id patch >>= f) :=
  Settling.perform (f := fun answer => Fallible.ofExcept answer >>= f) hfail hf

/-- A last update. -/
theorem Settling.last {patch : JobPatch} (hfail : ∀ t e, ¬ Kept id t → fail t e)
    (hpatch : patch.settles) :
    Settling id fail t (do let _ ← Relayer.update id patch; return ()) :=
  Settling.update hfail fun _ _ _ => hpatch

/-- A program that leaves the store alone comes first; what it throws is allowed. -/
theorem Settling.await {x : Relay α} {f : α → Relay Unit} (hx : Awaits x)
    (hf : ∀ a t, Settling id (fun _ _ => True) t (f a)) :
    Settling id (fun _ _ => True) t (x >>= f) := by
  have hawaits : Fallible.Obeys (OnlyUpdates id) (fun _ _ => True) (fun _ _ => True) t x := by
    refine (hx t).relax ?_
    rintro t r hr _ id' patch rfl
    cases hr
  exact hawaits.bind fun t a _ => hf a t

theorem Settling.tryCatch {x : Relay Unit} {handler : String → Relay Unit}
    (hx : Settling id (fun _ _ => True) t x) (hhandler : ∀ e t, Settling id fail t (handler e)) :
    Settling id fail t (tryCatch x handler) :=
  Fallible.Obeys.tryCatch hx fun t e _ => hhandler e t

theorem throwless_missing (t : Trace) (e : String) (h : ¬ Kept id t) : Throwless id t e := h

theorem fail_settles (error : String) : Settling id (Throwless id) t (Relayer.fail id error) :=
  Settling.last throwless_missing (Or.inr rfl)

theorem any_missing (t : Trace) (e : String) (_ : ¬ Kept id t) : (fun _ _ => True) t e := trivial

/-- `submit` comes before the rest of the `try`. -/
theorem Settling.submit {job : Job} {f : Job → Relay Unit} (hid : job.id = id)
    (hf : ∀ (job : Job) (t : Trace), job.id = id → Settling id (fun _ _ => True) t (f job)) :
    Settling id (fun _ _ => True) t (Relayer.submit job >>= f) := by
  unfold Relayer.submit
  rw [hid]
  cases job.actionID with
  | some actionID => exact hf job t hid
  | none =>
      cases job.payload with
      | chain payload => exact Settling.update any_missing fun job hid => hf job _ hid
      | direct payload =>
          refine ⟨fun _ id' patch heq => Ask.noConfusion heq, fun answer => ?_⟩
          cases answer with
          | error e => trivial
          | ok actionID => exact Settling.update any_missing fun job hid => hf job _ hid

theorem attemptJob_settles {job : Job} (hid : job.id = id) :
    Settling id (fun _ _ => True) t (attemptJob job) := by
  refine Settling.submit hid fun job t hid => ?_
  rw [hid]
  refine Settling.update any_missing fun job hid => ?_
  refine Settling.await (Awaits.ask rfl) fun action t => ?_
  refine Settling.await (requireSuccess_awaits _ _) fun _ t => ?_
  refine Settling.await (decodeAny_awaits _) fun response t => ?_
  rw [hid]
  refine Settling.update any_missing fun job hid => ?_
  rw [hid]
  cases findAnchor response with
  | none => exact Settling.last any_missing (Or.inl rfl)
  | some anchor =>
      refine Settling.update any_missing fun job hid => ?_
      refine Settling.await (settleAnchor_awaits anchor _) fun txHash t => ?_
      rw [hid]
      refine Settling.update any_missing fun job hid => ?_
      rw [hid]
      exact Settling.last any_missing (Or.inl rfl)

theorem recoverJob_settles (payload : Payload) :
    Settling id (fun _ _ => True) t (recoverJob id payload) := by
  refine Settling.await recoverPendingAnchorAllowingAlreadyCleared_awaits fun _ t => ?_
  cases payload with
  | direct payload => exact Settling.last any_missing (Or.inr rfl)
  | chain payload =>
      dsimp only
      split
      · refine Settling.await (recoverDeposit_awaits payload) fun recovery t => ?_
        exact Settling.last any_missing (Or.inl rfl)
      · exact Settling.last any_missing (Or.inr rfl)

theorem settleError_settles (payload : Option Payload) (error : String) :
    Settling id (Throwless id) t (settleError id payload error) := by
  unfold settleError
  cases payload with
  | none => exact fail_settles error
  | some payload =>
      dsimp only
      split
      · exact (recoverJob_settles payload).tryCatch fun e t => fail_settles _
      · exact fail_settles error

/-- **Whatever it is answered, `process` ends by settling its job.** -/
theorem process_settles {job : Job} (hid : job.id = id) :
    Settling id (Throwless id) t (process job) := by
  unfold process
  rw [hid]
  refine Settling.perform throwless_missing fun job hid => ?_
  refine (attemptJob_settles hid).tryCatch fun e t => ?_
  rw [hid]
  exact settleError_settles _ e

end Settling

/-! ### The store -/

section Stores

variable {s s' : Store} {id : String} {now : Nat}

def Store.Holds (s : Store) (id : String) : Prop := ∃ row ∈ s.jobs, row.id = id

/-- No job is lost. -/
def Store.Keeps (s s' : Store) : Prop := ∀ id, s.Holds id → s'.Holds id

theorem find?_of_holds (h : s.Holds id) :
    ∃ row, s.jobs.find? (fun row => row.id = id) = some row ∧ row.id = id := by
  cases hfind : s.jobs.find? (fun row => row.id = id) with
  | none =>
      obtain ⟨row, hrow, hid⟩ := h
      have hno := List.find?_eq_none.mp hfind row hrow
      simp [hid] at hno
  | some row => exact ⟨row, rfl, by simpa using List.find?_some hfind⟩

theorem updateJob_keeps {job : Job} {patch : JobPatch}
    (h : s.updateJob id patch now = .ok (job, s')) : s.Keeps s' := by
  obtain ⟨_, _, _, _, rfl⟩ := updateJob_ok h
  rintro other ⟨row, hrow, hid⟩
  refine ⟨_, List.mem_map_of_mem hrow, ?_⟩
  split
  · exact hid
  · exact hid

/-- A job in the store can be updated. -/
theorem updateJob_of_holds (h : s.Holds id) (patch : JobPatch) (now : Nat) :
    ∃ job s', s.updateJob id patch now = .ok (job, s') ∧ job.id = id ∧
      ∀ status, patch.status = some status → s'.statusOf id = some status := by
  obtain ⟨row, hfind, hid⟩ := find?_of_holds h
  have hget : s.getJob id = some (fromRow row) := by rw [Store.getJob, hfind]; rfl
  refine ⟨patch.apply now (fromRow row), _, by rw [Store.updateJob, hget]; rfl, hid, ?_⟩
  intro status hstatus
  have hsame : ((fun r : Job => decide (r.id = id)) ∘ fun r =>
      if r.id = id then r.overwrite (patch.apply now (fromRow row)) else r) =
      fun r => decide (r.id = id) := by
    funext r
    by_cases hr : r.id = id
    · simp [hr]
    · simp [hr]
  unfold Store.statusOf Store.getJob
  rw [List.find?_map, hsame, hfind]
  simp [hid, fromRow, Job.overwrite, JobPatch.apply, hstatus]

theorem createJob_keeps {uuid type account : String} {payload : Payload} {key : Option String}
    {job : Job} (h : s.createJob uuid now type account payload key = .ok (job, s')) :
    s.Keeps s' := by
  rcases createJob_ok h with ⟨rfl, _⟩ | ⟨_, _, _, rfl⟩
  · exact fun _ hheld => hheld
  · rintro id ⟨row, hrow, hid⟩
    exact ⟨row, List.mem_append_left _ hrow, hid⟩

theorem resetForRetry_keeps {job : Job} (h : s.resetForRetry id now = .ok (job, s')) :
    s.Keeps s' := by
  unfold Store.resetForRetry at h
  obtain ⟨_, _, h⟩ := bind_eq_ok.mp h
  obtain ⟨_, _, h⟩ := bind_eq_ok.mp h
  exact updateJob_keeps h

theorem nextRunnableJob_holds {tie : Nat} {job : Job} (h : s.nextRunnableJob tie = some job) :
    s.Holds job.id := by
  obtain ⟨row, hrow, _, rfl, _⟩ := nextRunnableJob_eq_some h
  exact ⟨row, hrow, rfl⟩

end Stores

/-! ### Turns -/

/-- A call of `process` on the job, from the trace on. -/
def Processes (id : String) (t : Trace) (p : Processing) : Prop :=
  Process.Obeys (OnlyUpdates id)
    (Fallible.outcome (fun t _ => Kept id t → LastSettles t) (Throwless id)) t p

/-- Where it may stand between two turns. -/
def Standing (id : String) : Processing → Prop
  | .done r => r = .ok ()
  | .call r k => r.isUpdate = false ∧ ∃ t, Kept id t ∧ ∀ answer,
      Processes id (⟨r, answer⟩ :: t) (k answer)

/-- The job is confirmed or failed. -/
def Settled (status : Option JobStatus) : Prop := status = some .confirmed ∨ status = some .failed

section Turns

variable {id : String}

/-- A turn leaves the call at an await, or returned with the job settled. -/
theorem turn_stands (now : Nat) {p : Processing} :
    ∀ {s : Store} {t : Trace}, s.Holds id → Kept id t →
      (LastSettles t → Settled (s.statusOf id)) → Processes id t p →
      s.Keeps (turn now s p).1 ∧ Standing id (turn now s p).2 ∧
        ∀ r, (turn now s p).2 = .done r → Settled ((turn now s p).1.statusOf id) := by
  induction p with
  | done r =>
      intro s t _ hkept hlast hobeys
      cases r with
      | error e => exact absurd hkept hobeys
      | ok a => exact ⟨fun _ h => h, rfl, fun _ _ => hlast (hobeys hkept)⟩
  | call r k ih =>
      intro s t hheld hkept hlast hobeys
      by_cases hupdate : r.isUpdate = true
      · cases r with
        | update id' patch =>
            cases hobeys.allowed hkept id' patch rfl
            obtain ⟨job, s', hs', hid, hstatus⟩ := updateJob_of_holds hheld patch now
            have hkeeps := updateJob_keeps hs'
            have hkept' : Kept id (⟨.update id patch, .ok job⟩ :: t) := by
              intro x hx
              rcases List.mem_cons.mp hx with rfl | hx
              · exact ⟨job, rfl, hid⟩
              · exact hkept x hx
            have hlast' : LastSettles (⟨.update id patch, .ok job⟩ :: t) →
                Settled (s'.statusOf id) := by
              rintro (h | h)
              · exact Or.inl (hstatus _ h)
              · exact Or.inr (hstatus _ h)
            obtain ⟨hk, hstands, hdone⟩ :=
              ih (.ok job) (hkeeps id hheld) hkept' hlast' (hobeys.answer (.ok job))
            have hturn : turn now s (.call (.update id patch) k) = turn now s' (k (.ok job)) := by
              simp only [turn, hs']
            rw [hturn]
            exact ⟨fun other h => hk other (hkeeps other h), hstands, hdone⟩
        | _ => cases hupdate
      · have hfalse : r.isUpdate = false := by simpa using hupdate
        have hturn : turn now s (.call r k) = (s, .call r k) := by
          cases r with
          | update id' patch => cases hfalse
          | _ => rfl
        rw [hturn]
        refine ⟨fun _ h => h, ⟨hfalse, t, hkept, fun answer => hobeys.answer answer⟩, ?_⟩
        intro r' h
        cases h

end Turns

/-! ### The orchestrator -/

/-- What holds between turns.  That the queue is empty while nothing runs is owed only once the
orchestrator has been woken. -/
structure Sound (woken : Prop) (o : Orchestrator) : Prop where
  standing : ∀ d ∈ o.drains, o.store.Holds d.job ∧ Standing d.job d.process
  one : o.drains.length = if o.running then 1 else 0
  settled : ∀ e ∈ o.returned, Settled e.2
  quiet : woken → o.running = false → ∀ row ∈ o.store.jobs, row.status.isRunnable = false

/-- What holds within a turn of the one drain there is. -/
structure Turning (o : Orchestrator) : Prop where
  running : o.running = true
  alone : o.drains = []
  settled : ∀ e ∈ o.returned, Settled e.2

section Orchestrators

variable {woken : Prop} {o o' : Orchestrator} {now tie : Nat}

theorem Sound.mono {woken' : Prop} (h : Sound woken o) (himp : woken' → woken) : Sound woken' o :=
  ⟨h.standing, h.one, h.settled, fun hwoken => h.quiet (himp hwoken)⟩

/-- A store that has lost no job takes the place of the other. -/
theorem Sound.store (h : Sound woken o) {store : Store} (hkeeps : o.store.Keeps store) :
    Sound False { o with store } :=
  ⟨fun d hd => ⟨hkeeps _ (h.standing d hd).1, (h.standing d hd).2⟩, h.one, h.settled,
    False.elim⟩

theorem Sound.drains_nil (h : Sound woken o) (hrunning : o.running = false) : o.drains = [] := by
  have hone := h.one
  rw [hrunning] at hone
  exact List.length_eq_zero_iff.mp hone

/-- A drain that is there is the only one, and leaves none when it goes on. -/
theorem Sound.turning (h : Sound woken o) {i : Nat} {d : Drain} (hd : o.drains[i]? = some d) :
    Turning (o.leave i) := by
  have hlt : i < o.drains.length := (List.getElem?_eq_some_iff.mp hd).1
  have hone := h.one
  cases hrunning : o.running with
  | false => rw [hrunning] at hone; simp only [Bool.false_eq_true, if_false] at hone; omega
  | true =>
      rw [hrunning, if_pos rfl] at hone
      obtain ⟨only, heq⟩ := List.length_eq_one_iff.mp hone
      refine ⟨hrunning, ?_, h.settled⟩
      have hi : i = 0 := by omega
      simp [Orchestrator.leave, heq, hi]

theorem Turning.proceed (h : Turning o) {job : String} {p : Processing} {t : Trace}
    (hheld : o.store.Holds job) (hkept : Kept job t) (hlast : ¬ LastSettles t)
    (hobeys : Processes job t p) : Sound woken (o.proceed now job p) := by
  obtain ⟨hkeeps, hstands, hdone⟩ :=
    turn_stands now hheld hkept (fun hl => absurd hl hlast) hobeys
  refine ⟨?_, ?_, ?_, fun _ hrunning => ?_⟩
  · intro d hd
    simp only [Orchestrator.proceed, h.alone, List.nil_append, List.mem_singleton] at hd
    rw [hd]
    exact ⟨hkeeps job hheld, hstands⟩
  · simp [Orchestrator.proceed, h.alone, h.running]
  · intro e he
    rcases List.mem_append.mp he with hbefore | hnow
    · exact h.settled e hbefore
    · cases hafter : (turn now o.store p).2 with
      | call r k => simp [hafter] at hnow
      | done r =>
          simp only [hafter, List.mem_singleton] at hnow
          rw [hnow]
          exact hdone r hafter
  · rw [show (o.proceed now job p).running = o.running from rfl, h.running] at hrunning
    cases hrunning

theorem Turning.nextJob (h : Turning o) {exhausted : Orchestrator}
    (hexhausted : (∀ row ∈ o.store.jobs, row.status.isRunnable = false) →
      Sound woken exhausted) : Sound woken (o.nextJob now tie exhausted) := by
  unfold Orchestrator.nextJob
  cases hnext : o.store.nextRunnableJob tie with
  | none => exact hexhausted (nextRunnableJob_eq_none hnext)
  | some job =>
      refine h.proceed (nextRunnableJob_holds hnext) (t := []) ?_ id (process_settles rfl)
      intro x hx
      cases hx

/-- With the queue empty the drain may return. -/
theorem Turning.release (h : Turning o)
    (hempty : ∀ row ∈ o.store.jobs, row.status.isRunnable = false) :
    Sound woken { o with running := false } :=
  ⟨by simp [h.alone], by simp [h.alone], h.settled, fun _ _ => hempty⟩

theorem Turning.round (h : Turning o) : Sound woken (o.round now tie) := by
  have hcleared : Turning { o with wakeRequested := false } := ⟨h.running, h.alone, h.settled⟩
  exact hcleared.nextJob hcleared.release

theorem Turning.resume (h : Turning o) : Sound woken (o.resume now tie) := by
  refine h.nextJob fun hempty => ?_
  split
  · exact h.round
  · exact h.release hempty

/-- **Whoever wakes the orchestrator finds it draining or the queue empty.** -/
theorem Sound.wake (h : Sound woken o) : Sound True (o.wake now tie) := by
  unfold Orchestrator.wake
  cases hrunning : o.running with
  | true =>
      simp only [if_true]
      refine ⟨h.standing, by simpa [hrunning] using h.one, h.settled, fun _ hfalse => ?_⟩
      cases hfalse
  | false =>
      simp only [Bool.false_eq_true, if_false]
      exact Turning.round (o := { o with wakeRequested := true, running := true })
        ⟨rfl, h.drains_nil hrunning, h.settled⟩

theorem Sound.enqueued {x : Except StoreError (Job × Store)} (h : Sound woken o)
    (hkeeps : ∀ job store, x = .ok (job, store) → o.store.Keeps store)
    (hstep : o.woken now tie x = .ok o') : Sound True o' := by
  cases x with
  | error cause => cases hstep
  | ok result =>
      cases hstep
      exact (h.store (hkeeps result.1 result.2 rfl)).wake

theorem Sound.answered {i : Nat} {answer : (r : Ask) → Answered r} (h : Sound woken o)
    (hstep : o.answered now i answer = .ok o') : Sound woken o' := by
  obtain ⟨d, r, k, hd, hp, rfl⟩ := Orchestrator.answered_ok hstep
  obtain ⟨hheld, hstands⟩ := h.standing d (List.mem_of_getElem? hd)
  rw [hp] at hstands
  obtain ⟨hawaited, t, hkept, hobeys⟩ := hstands
  refine (h.turning hd).proceed (o := o.leave i) hheld (hkept.cons hawaited) ?_ (hobeys (answer r))
  intro hlast
  cases r with
  | update id patch => cases hawaited
  | _ => exact hlast

theorem Sound.processed {i : Nat} (h : Sound woken o) (hstep : o.processed now tie i = .ok o') :
    Sound woken o' := by
  obtain ⟨d, r, hd, hp, hresumed⟩ := Orchestrator.processed_ok hstep
  have hstands := (h.standing d (List.mem_of_getElem? hd)).2
  rw [hp] at hstands
  rcases hresumed with ⟨_, rfl⟩ | ⟨e, rfl, _⟩
  · exact (h.turning hd).resume
  · cases hstands

theorem sound_step {t : Turn} (h : Sound woken o) (hstep : o.step t = .ok o') :
    Sound woken o' := by
  unfold Orchestrator.step at hstep
  cases hentry : t.entry with
  | enqueueDirect uuid account command ciphertext =>
      simp only [hentry] at hstep
      exact (h.enqueued (fun job store => createJob_keeps) hstep).mono fun _ => trivial
  | enqueueChain uuid event =>
      simp only [hentry] at hstep
      exact (h.enqueued (fun job store => createJob_keeps) hstep).mono fun _ => trivial
  | retry id =>
      simp only [hentry] at hstep
      exact (h.enqueued (fun job store => resetForRetry_keeps) hstep).mono fun _ => trivial
  | wake =>
      simp only [hentry] at hstep
      cases hstep
      exact h.wake.mono fun _ => trivial
  | answered i answer => simp only [hentry] at hstep; exact h.answered hstep
  | returned i => simp only [hentry] at hstep; exact h.processed hstep

theorem sound_run (h : Sound woken o) (turns : List Turn) :
    Sound woken (Machine.run Orchestrator.step o turns) :=
  Machine.invariant (fun _ _ _ h hstep => sound_step h hstep) h turns

theorem sound_started (store : Store) : Sound False { store } where
  standing := by intro d hd; cases hd
  one := rfl
  settled := by intro e he; cases he
  quiet := False.elim

end Orchestrators

/-- **No wake-up is lost.**  In any run of the orchestrator over any store, at any point between two
turns, at most one job is being processed and every call of `process` that has returned left its job
confirmed or failed; and once the orchestrator has been woken, whenever `running` and
`wakeRequested` are both clear no job in the store is runnable. -/
theorem no_wake_up_lost (store : Store) (before after : List Turn) (now tie : Nat) :
    let o := Orchestrator.after store (before ++ { now, tie, entry := .wake } :: after)
    o.drains.length ≤ 1 ∧
      (∀ e ∈ o.returned, e.2 = some .confirmed ∨ e.2 = some .failed) ∧
      (o.running = false → o.wakeRequested = false →
        ∀ row ∈ o.store.jobs, row.status.isRunnable = false) := by
  intro o
  have hbefore : Sound False (Orchestrator.after store before) :=
    sound_run (sound_started store) before
  have hsound : Sound True o := by
    show Sound True (Machine.run _ _ _)
    rw [Machine.run_append, Machine.run_cons]
    exact sound_run (Sound.wake hbefore) after
  refine ⟨?_, hsound.settled, fun hrunning _ => hsound.quiet trivial hrunning⟩
  rw [hsound.one]
  split
  · exact Nat.le_refl 1
  · exact Nat.zero_le 1

end QuietLine.Relayer
