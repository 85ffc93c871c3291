/-
Each request on the chain gets one job (`Indexer.poll`).

A job is found by its external key before one is made, so a request has one job at most, however
often it is read.  The cursor is saved only when the whole window before it is enqueued, so a request
below the cursor has one; and it moves to the end of a window that began at it, so it moves forward.
-/
import Mathlib.Data.List.Infix
import QuietLine.Relayer.Indexer

namespace QuietLine.Relayer

open Outcome

/-! ### What identifies a job -/

namespace Store

/-- Of each job, the key and what it was enqueued with; no update changes them. -/
def entries (s : Store) : List (Option String × Payload) :=
  s.jobs.map fun row => (row.externalKey, row.payload)

/-- There is a job with this key. -/
def Has (s : Store) (key : String) : Prop := ∃ entry ∈ s.entries, entry.1 = some key

/-- How many there are. -/
def count (s : Store) (key : String) : Nat :=
  (s.jobs.filter fun row => row.externalKey = some key).length

/-- No two jobs have one key. -/
def Single (s : Store) : Prop :=
  s.entries.Pairwise fun entry entry' => entry.1.isSome → entry.1 ≠ entry'.1

end Store

section Entries

variable {s s' : Store} {job : Job} {key : String} {now : Nat}

theorem count_eq (s : Store) (key : String) :
    s.count key = (s.entries.filter fun entry => entry.1 = some key).length := by
  unfold Store.count Store.entries
  rw [List.filter_map, List.length_map]
  rfl

/-- Jobs of one key are one job. -/
theorem Store.Single.count_le (h : s.Single) (key : String) : s.count key ≤ 1 := by
  rw [count_eq]
  unfold Store.Single at h
  generalize s.entries = entries at h
  induction entries with
  | nil => simp
  | cons entry rest ih =>
      rw [List.pairwise_cons] at h
      by_cases hkey : entry.1 = some key
      · have hnone : rest.filter (fun entry' => entry'.1 = some key) = [] := by
          rw [List.filter_eq_nil_iff]
          intro entry' hentry' hsame
          exact h.1 entry' hentry' (by simp [hkey]) (hkey.trans (of_decide_eq_true hsame).symm)
        simp [hkey, hnone]
      · simpa [hkey] using ih h.2

theorem Store.Has.count_pos (h : s.Has key) : 0 < s.count key := by
  obtain ⟨entry, hentry, hkey⟩ := h
  rw [count_eq]
  exact List.length_pos_of_mem (List.mem_filter.mpr ⟨hentry, by simp [hkey]⟩)

theorem updateJob_entries {id : String} {patch : JobPatch}
    (h : s.updateJob id patch now = .ok (job, s')) :
    s'.entries = s.entries ∧ s'.cursors = s.cursors := by
  obtain ⟨row, _, _, _, rfl⟩ := updateJob_ok h
  refine ⟨?_, rfl⟩
  unfold Store.entries
  rw [List.map_map]
  refine List.map_congr_left fun row' _ => ?_
  simp only [Function.comp_apply]
  split
  · rfl
  · rfl

theorem resetForRetry_entries {id : String} (h : s.resetForRetry id now = .ok (job, s')) :
    s'.entries = s.entries ∧ s'.cursors = s.cursors := by
  unfold Store.resetForRetry at h
  simp only [bind_eq_ok] at h
  obtain ⟨_, _, _, _, hupdate⟩ := h
  exact updateJob_entries hupdate

theorem enqueueDirect_entries {uuid account command : String} {ciphertext : List UInt8}
    (h : s.enqueueDirect uuid now account command ciphertext = .ok (job, s')) :
    s'.entries = s.entries ++ [(none, .direct { command, ciphertext })] ∧
      s'.cursors = s.cursors := by
  rcases createJob_ok h with ⟨_, row, _, _, hkey, hsome⟩ | ⟨rfl, _, _, rfl⟩
  · rw [← hkey] at hsome
    cases hsome
  · refine ⟨?_, rfl⟩
    unfold Store.entries
    rw [List.map_append, List.map_singleton]
    rfl

/-- A request is enqueued unless its key is there. -/
theorem enqueueChain_entries {uuid account command : String} {requestID : Hash} {block : Nat}
    (hkey : key ≠ "")
    (h : s.enqueueChain uuid now account command requestID block key = .ok (job, s')) :
    (s' = s ∧ s.Has key) ∨
      (¬ s.Has key ∧ s'.cursors = s.cursors ∧ s'.entries =
        s.entries ++ [(some key, .chain { command, requestID, blockNumber := block })]) := by
  have htruthy : truthy (some key) = some key := by simp [truthy, hkey]
  rcases createJob_ok h with ⟨rfl, row, hrow, _, hsame, _⟩ | ⟨rfl, _, hnew, rfl⟩
  · exact Or.inl ⟨rfl, _, List.mem_map_of_mem hrow, by rw [← hsame, htruthy]⟩
  · have hjob : (Job.queued uuid now command account
        (.chain { command, requestID, blockNumber := block }) (some key)).externalKey = some key :=
      htruthy
    refine Or.inr ⟨?_, rfl, ?_⟩
    · rintro ⟨entry, hentry, hsame⟩
      obtain ⟨row, hrow, rfl⟩ := List.mem_map.mp hentry
      exact hnew (by simp [hjob]) row hrow (hsame.trans hjob.symm)
    · unfold Store.entries
      rw [List.map_append, List.map_singleton, hjob]
      rfl

/-- What others write adds a job without a key, or none. -/
theorem jobWrite_entries {write : JobWrite} (h : write.apply s = .ok (job, s')) :
    s'.cursors = s.cursors ∧
      (s'.entries = s.entries ∨ ∃ payload, s'.entries = s.entries ++ [(none, .direct payload)]) := by
  cases write with
  | update id patch now =>
      obtain ⟨hentries, hcursors⟩ := updateJob_entries h
      exact ⟨hcursors, Or.inl hentries⟩
  | enqueueDirect uuid now account command ciphertext =>
      obtain ⟨hentries, hcursors⟩ := enqueueDirect_entries h
      exact ⟨hcursors, Or.inr ⟨_, hentries⟩⟩
  | retry id now =>
      obtain ⟨hentries, hcursors⟩ := resetForRetry_entries h
      exact ⟨hcursors, Or.inl hentries⟩

theorem Store.Has.append {entries : List (Option String × Payload)} (h : s.Has key)
    (heq : s'.entries = s.entries ++ entries) : s'.Has key := by
  obtain ⟨entry, hentry, hkey⟩ := h
  exact ⟨entry, by simp [heq, hentry], hkey⟩

/-- A job of a new key is one more. -/
theorem Store.Single.append {entry : Option String × Payload} (h : s.Single)
    (heq : s'.entries = s.entries ++ [entry])
    (hnew : ∀ key, entry.1 = some key → ¬ s.Has key) : s'.Single := by
  unfold Store.Single at h ⊢
  rw [heq, List.pairwise_append]
  refine ⟨h, List.pairwise_singleton _ _, fun first hfirst last hlast hsome hsame => ?_⟩
  rw [List.mem_singleton] at hlast
  subst hlast
  obtain ⟨key, hkey⟩ := Option.isSome_iff_exists.mp hsome
  exact hnew key (hsame ▸ hkey) ⟨first, hfirst, hkey⟩

end Entries

/-! ### The events of a window -/

/-- The instruction is that of a log of one of the blocks. -/
def Watch.IsEvent (W : Watch) (fromBlock toBlock : Nat) (event : ChainInstruction) : Prop :=
  ∃ block, fromBlock ≤ block ∧ block ≤ toBlock ∧
    ∃ log ∈ W.logs block, event = log.instruction W.keccak block

section Events

variable {W : Watch} {fromBlock toBlock : Nat} {event : ChainInstruction}

theorem mem_getLogs {deposits : Bool} : event ∈ W.getLogs deposits fromBlock toBlock ↔
    ∃ block, fromBlock ≤ block ∧ block ≤ toBlock ∧
      ∃ log ∈ W.logs block, log.isDeposit = deposits ∧
        event = log.instruction W.keccak block := by
  unfold Watch.getLogs
  simp only [List.mem_flatMap, List.mem_range'_1, List.mem_map, List.mem_filter,
    decide_eq_true_eq]
  constructor
  · rintro ⟨block, ⟨hfrom, hto⟩, log, ⟨hlog, hdeposit⟩, rfl⟩
    exact ⟨block, hfrom, by omega, log, hlog, hdeposit, rfl⟩
  · rintro ⟨block, hfrom, hto, log, hlog, hdeposit, rfl⟩
    exact ⟨block, ⟨hfrom, by omega⟩, log, ⟨hlog, hdeposit⟩, rfl⟩

/-- The indexer is told each log of the window, and nothing else. -/
theorem mem_events : event ∈ W.events fromBlock toBlock ↔ W.IsEvent fromBlock toBlock event := by
  unfold Watch.events Watch.IsEvent
  rw [List.mem_mergeSort, List.mem_append, mem_getLogs, mem_getLogs]
  constructor
  · rintro (⟨block, hfrom, hto, log, hlog, _, heq⟩ | ⟨block, hfrom, hto, log, hlog, _, heq⟩)
    · exact ⟨block, hfrom, hto, log, hlog, heq⟩
    · exact ⟨block, hfrom, hto, log, hlog, heq⟩
  · rintro ⟨block, hfrom, hto, log, hlog, heq⟩
    cases hdeposit : log.isDeposit with
    | true => exact Or.inl ⟨block, hfrom, hto, log, hlog, hdeposit, heq⟩
    | false => exact Or.inr ⟨block, hfrom, hto, log, hlog, hdeposit, heq⟩

theorem Watch.IsEvent.key_ne (h : W.IsEvent fromBlock toBlock event) : event.externalKey ≠ "" := by
  obtain ⟨block, _, _, log, _, rfl⟩ := h
  cases log with
  | depositSubmitted => simp [VaultLog.instruction]
  | confidentialRequestSubmitted => simp [VaultLog.instruction]

theorem Watch.IsEvent.mono {toBlock' : Nat} (h : W.IsEvent fromBlock toBlock event)
    (hle : toBlock ≤ toBlock') : W.IsEvent fromBlock toBlock' event := by
  obtain ⟨block, hfrom, hto, hlog⟩ := h
  exact ⟨block, hfrom, hto.trans hle, hlog⟩

end Events

/-! ### The invariant -/

namespace Watch

/-- The window that `poll` works on begins at the stored cursor. -/
def InWindow (W : Watch) (s : Indexing) : Prop :=
  match s.polling with
  | .idle | .blockNumber => True
  | .events latest cursor => cursor = W.cursor s ∧ cursor ≤ latest ∧ latest ≤ s.head
  | .enqueue latest toBlock rest =>
      W.cursor s ≤ toBlock ∧ toBlock ≤ latest ∧ latest ≤ s.head ∧
        ∃ done, W.events (W.cursor s) toBlock = done ++ rest ∧
          ∀ event ∈ done, s.store.Has event.externalKey

structure Indexed (W : Watch) (s : Indexing) : Prop where
  single : s.store.Single
  /-- Every request below the cursor has its job. -/
  covered : ∀ block, W.startBlock ≤ block → block < W.cursor s → ∀ log ∈ W.logs block,
    s.store.Has (log.instruction W.keccak block).externalKey
  /-- Every job of a request has its log. -/
  origin : ∀ entry ∈ s.store.entries, (∃ payload, entry = (none, .direct payload)) ∨
    ∃ event, W.IsEvent W.startBlock s.head event ∧ entry = (some event.externalKey, .chain {
      command := event.command, requestID := event.requestID, blockNumber := event.blockNumber })
  started : W.startBlock ≤ W.cursor s
  window : W.InWindow s

end Watch

section Step

variable {W : Watch} {s s' : Indexing}

/-- Where jobs are added at most, the window stays as it was. -/
theorem Watch.InWindow.keep (h : W.InWindow s) (hpolling : s'.polling = s.polling)
    (hcursor : W.cursor s' = W.cursor s) (hhead : s.head ≤ s'.head)
    (hhas : ∀ key, s.store.Has key → s'.store.Has key) : W.InWindow s' := by
  unfold Watch.InWindow at h ⊢
  rw [hpolling]
  cases hp : s.polling with
  | idle => trivial
  | blockNumber => trivial
  | events latest cursor =>
      rw [hp] at h
      obtain ⟨hat, hle, hmined⟩ := h
      exact ⟨hat.trans hcursor.symm, hle, hmined.trans hhead⟩
  | enqueue latest toBlock rest =>
      rw [hp] at h
      obtain ⟨hat, hle, hmined, done, hevents, hdone⟩ := h
      rw [hcursor]
      exact ⟨hat, hle, hmined.trans hhead, done, hevents, fun event he => hhas _ (hdone event he)⟩

/-- Where the store and what is mined stay, so does the rest. -/
theorem Watch.Indexed.move (h : W.Indexed s) (hstore : s'.store = s.store) (hhead : s.head ≤ s'.head)
    (hwindow : W.InWindow s') : W.Indexed s' := by
  have hcursor : W.cursor s' = W.cursor s := by
    unfold Watch.cursor
    rw [hstore]
  refine ⟨?_, ?_, ?_, ?_, hwindow⟩
  · rw [hstore]
    exact h.single
  · rw [hcursor, hstore]
    exact h.covered
  · rw [hstore]
    intro entry hentry
    rcases h.origin entry hentry with hdirect | ⟨event, hevent, heq⟩
    · exact Or.inl hdirect
    · exact Or.inr ⟨event, hevent.mono hhead, heq⟩
  · rw [hcursor]
    exact h.started

/-- A job without a key, or none, is added to the store. -/
theorem Watch.Indexed.written (h : W.Indexed s) (hpolling : s'.polling = s.polling)
    (hhead : s'.head = s.head) (hcursors : s'.store.cursors = s.store.cursors)
    (hentries : s'.store.entries = s.store.entries ∨
      ∃ payload, s'.store.entries = s.store.entries ++ [(none, .direct payload)]) :
    W.Indexed s' := by
  have hcursor : W.cursor s' = W.cursor s := by
    unfold Watch.cursor Store.getCursor
    rw [hcursors]
  have hhas : ∀ key, s.store.Has key → s'.store.Has key := by
    intro key hkey
    rcases hentries with heq | ⟨payload, heq⟩
    · exact hkey.append (by rw [heq, List.append_nil])
    · exact hkey.append heq
  refine ⟨?_, ?_, ?_, ?_, h.window.keep hpolling hcursor hhead.ge hhas⟩
  · rcases hentries with heq | ⟨payload, heq⟩
    · unfold Store.Single
      rw [heq]
      exact h.single
    · exact h.single.append heq (by simp)
  · rw [hcursor]
    exact fun block hfrom hto log hlog => hhas _ (h.covered block hfrom hto log hlog)
  · rw [hhead]
    intro entry hentry
    rcases hentries with heq | ⟨payload, heq⟩
    · rw [heq] at hentry
      exact h.origin entry hentry
    · rw [heq, List.mem_append, List.mem_singleton] at hentry
      rcases hentry with hentry | rfl
      · exact h.origin entry hentry
      · exact Or.inl ⟨payload, rfl⟩
  · rw [hcursor]
    exact h.started

/-- The next request of the window is enqueued. -/
theorem Watch.Indexed.enqueued (h : W.Indexed s) {latest toBlock : Nat} {event : ChainInstruction}
    {rest : List ChainInstruction} (hpolling : s.polling = .enqueue latest toBlock (event :: rest))
    {uuid : String} {now : Nat} {job : Job} {store : Store}
    (henqueue : s.store.enqueueChain uuid now event.account event.command event.requestID
      event.blockNumber event.externalKey = .ok (job, store)) :
    W.Indexed { s with store, polling := .enqueue latest toBlock rest } ∧
      W.cursor { s with store, polling := .enqueue latest toBlock rest } = W.cursor s := by
  have hwindow := h.window
  unfold Watch.InWindow at hwindow
  rw [hpolling] at hwindow
  obtain ⟨hat, hle, hmined, done, hevents, hdone⟩ := hwindow
  have hevent : W.IsEvent (W.cursor s) toBlock event := mem_events.mp (by rw [hevents]; simp)
  have horigin : W.IsEvent W.startBlock s.head event := by
    obtain ⟨block, hfrom, hto, hlog⟩ := hevent
    exact ⟨block, h.started.trans hfrom, by omega, hlog⟩
  obtain ⟨hcursors, hadded⟩ : store.cursors = s.store.cursors ∧
      (store.Has event.externalKey ∧ (∀ key, s.store.Has key → store.Has key) ∧ store.Single ∧
        ∀ entry ∈ store.entries, entry ∈ s.store.entries ∨ entry = (some event.externalKey, .chain {
          command := event.command, requestID := event.requestID
          blockNumber := event.blockNumber })) := by
    rcases enqueueChain_entries hevent.key_ne henqueue with ⟨rfl, hhas⟩ | ⟨hnew, hcursors, heq⟩
    · exact ⟨rfl, hhas, fun _ hkey => hkey, h.single, fun entry hentry => Or.inl hentry⟩
    · have hlast : (some event.externalKey, Payload.chain {
          command := event.command, requestID := event.requestID
          blockNumber := event.blockNumber }) ∈ store.entries := by simp [heq]
      refine ⟨hcursors, ⟨_, hlast, rfl⟩, fun _ hkey => hkey.append heq, ?_, ?_⟩
      · refine h.single.append heq fun key hkey => ?_
        rw [← Option.some.inj hkey]
        exact hnew
      · intro entry hentry
        rw [heq, List.mem_append, List.mem_singleton] at hentry
        exact hentry
  obtain ⟨hhas, hkeeps, hsingle, hentries⟩ := hadded
  have hcursor : W.cursor { s with store, polling := .enqueue latest toBlock rest } =
      W.cursor s := by
    unfold Watch.cursor Store.getCursor
    rw [hcursors]
  refine ⟨⟨hsingle, ?_, ?_, ?_, ?_⟩, hcursor⟩
  · rw [hcursor]
    exact fun block hfrom hto log hlog => hkeeps _ (h.covered block hfrom hto log hlog)
  · intro entry hentry
    rcases hentries entry hentry with hold | rfl
    · exact h.origin entry hold
    · exact Or.inr ⟨event, horigin, rfl⟩
  · rw [hcursor]
    exact h.started
  · show _ ∧ _ ∧ _ ∧ ∃ done, W.events (W.cursor _) toBlock = done ++ rest ∧ _
    rw [hcursor]
    refine ⟨hat, hle, hmined, done ++ [event], by rw [hevents]; simp, fun event' hevent' => ?_⟩
    rw [List.mem_append, List.mem_singleton] at hevent'
    rcases hevent' with hold | rfl
    · exact hkeeps _ (hdone event' hold)
    · exact hhas

theorem inWindow_next {latest cursor : Nat} (hmined : latest ≤ s.head)
    (hcursor : W.cursor s = cursor) (hpolling : s.polling = nextWindow latest cursor) :
    W.InWindow s := by
  unfold Watch.InWindow
  rw [hpolling]
  unfold nextWindow
  by_cases hle : cursor ≤ latest
  · rw [if_pos hle]
    exact ⟨hcursor.symm, hle, hmined⟩
  · rw [if_neg hle]
    trivial

theorem le_windowEnd {latest cursor : Nat} (hle : cursor ≤ latest) :
    cursor ≤ windowEnd latest cursor ∧ windowEnd latest cursor ≤ latest := by
  unfold windowEnd maxBlockRange
  split
  · omega
  · omega

/-- The window is done: the cursor moves past it. -/
theorem Watch.Indexed.saved (h : W.Indexed s) {latest toBlock : Nat}
    (hpolling : s.polling = .enqueue latest toBlock []) :
    W.Indexed { s with
      store := s.store.setCursor cursorName (toBlock + 1)
      polling := nextWindow latest (toBlock + 1) } ∧ W.cursor s ≤ toBlock := by
  have hwindow := h.window
  unfold Watch.InWindow at hwindow
  rw [hpolling] at hwindow
  obtain ⟨hat, _, hmined, done, hevents, hdone⟩ := hwindow
  rw [List.append_nil] at hevents
  have hcursor : W.cursor { s with
      store := s.store.setCursor cursorName (toBlock + 1)
      polling := nextWindow latest (toBlock + 1) } = toBlock + 1 :=
    getCursor_setCursor cursorName (toBlock + 1) W.startBlock
  refine ⟨⟨h.single, ?_, h.origin, ?_, inWindow_next hmined hcursor rfl⟩, hat⟩
  · rw [hcursor]
    intro block hfrom hto log hlog
    by_cases hbelow : block < W.cursor s
    · exact h.covered block hfrom hbelow log hlog
    · refine hdone _ ?_
      rw [← hevents, mem_events]
      exact ⟨block, by omega, by omega, log, hlog, rfl⟩
  · rw [hcursor]
    have hstarted := h.started
    omega

/-- **Every step keeps the invariant**, and moves the cursor forward if at all. -/
theorem Watch.Indexed.step {move : IndexerMove} (h : W.Indexed s) (hstep : W.step s move = .ok s') :
    W.Indexed s' ∧ W.cursor s ≤ W.cursor s' := by
  cases move with
  | mine =>
      cases hstep
      have hhead : s.head ≤ s.head + 1 := Nat.le_succ _
      exact ⟨h.move rfl hhead (h.window.keep rfl rfl hhead fun _ hkey => hkey), le_rfl⟩
  | timer =>
      unfold Watch.step at hstep
      cases hpolling : s.polling with
      | idle =>
          simp only [hpolling] at hstep
          cases hstep
          exact ⟨h.move rfl le_rfl trivial, le_rfl⟩
      | blockNumber | events | enqueue => simp [hpolling] at hstep
  | blockNumber latest =>
      unfold Watch.step at hstep
      cases hpolling : s.polling with
      | blockNumber =>
          simp only [hpolling] at hstep
          by_cases hmined : latest ≤ s.head
          · rw [if_pos hmined] at hstep
            cases hstep
            exact ⟨h.move rfl le_rfl (inWindow_next hmined rfl rfl), le_rfl⟩
          · rw [if_neg hmined] at hstep
            cases hstep
      | idle | events | enqueue => simp [hpolling] at hstep
  | events =>
      unfold Watch.step at hstep
      cases hpolling : s.polling with
      | events latest cursor =>
          have hwindow := h.window
          unfold Watch.InWindow at hwindow
          simp only [hpolling] at hstep hwindow
          obtain ⟨rfl, hle, hmined⟩ := hwindow
          cases hstep
          obtain ⟨hfrom, hto⟩ := le_windowEnd hle
          exact ⟨h.move rfl le_rfl ⟨hfrom, hto, hmined, [], rfl, by simp⟩, le_rfl⟩
      | idle | blockNumber | enqueue => simp [hpolling] at hstep
  | enqueue uuid now =>
      unfold Watch.step at hstep
      cases hpolling : s.polling with
      | enqueue latest toBlock rest =>
          cases rest with
          | nil => simp [hpolling] at hstep
          | cons event rest =>
              simp only [hpolling] at hstep
              cases henqueue : s.store.enqueueChain uuid now event.account event.command
                  event.requestID event.blockNumber event.externalKey with
              | error e =>
                  rw [henqueue] at hstep
                  cases hstep
                  exact ⟨h.move rfl le_rfl trivial, le_rfl⟩
              | ok answer =>
                  rw [henqueue] at hstep
                  cases hstep
                  obtain ⟨hindexed, hcursor⟩ := h.enqueued hpolling henqueue
                  exact ⟨hindexed, hcursor.ge⟩
      | idle | blockNumber | events => simp [hpolling] at hstep
  | saveCursor =>
      unfold Watch.step at hstep
      cases hpolling : s.polling with
      | enqueue latest toBlock rest =>
          cases rest with
          | cons event rest => simp [hpolling] at hstep
          | nil =>
              simp only [hpolling] at hstep
              cases hstep
              obtain ⟨hindexed, hat⟩ := h.saved hpolling
              refine ⟨hindexed, ?_⟩
              unfold Watch.cursor at hat ⊢
              rw [getCursor_setCursor]
              omega
      | idle | blockNumber | events => simp [hpolling] at hstep
  | fail =>
      unfold Watch.step at hstep
      cases hpolling : s.polling with
      | idle => simp [hpolling] at hstep
      | blockNumber | events | enqueue =>
          simp only [hpolling] at hstep
          cases hstep
          exact ⟨h.move rfl le_rfl trivial, le_rfl⟩
  | crash =>
      cases hstep
      exact ⟨h.move rfl le_rfl trivial, le_rfl⟩
  | elsewhere write =>
      unfold Watch.step at hstep
      cases hwrite : write.apply s.store with
      | error e => simp [hwrite] at hstep
      | ok answer =>
          obtain ⟨job, store⟩ := answer
          simp only [hwrite] at hstep
          cases hstep
          obtain ⟨hcursors, hentries⟩ := jobWrite_entries hwrite
          refine ⟨h.written rfl rfl hcursors hentries, ?_⟩
          unfold Watch.cursor Store.getCursor
          rw [hcursors]

end Step

/-! ### A poll without a failure -/

namespace Watch

/-- The move is a failure: of a call, of the relayer, or of a write. -/
def Fails (s : Indexing) : IndexerMove → Prop
  | .fail | .crash => True
  | .enqueue uuid now => ∀ latest toBlock event rest,
      s.polling = .enqueue latest toBlock (event :: rest) →
      ∃ cause, s.store.enqueueChain uuid now event.account event.command event.requestID
        event.blockNumber event.externalKey = .error cause
  | _ => False

/-- From `s`, where a poll is under way, the moves that are accepted belong to it, none of them
fails, and they end it. -/
structure Finishes (W : Watch) (s : Indexing) (moves : List IndexerMove) : Prop where
  busy : Machine.Meets W.step (fun t _ => t.polling ≠ .idle) s moves
  clean : Machine.Meets W.step (fun t move => ¬ Fails t move) s moves
  ends : (Machine.run W.step s moves).polling = .idle

/-- The poll was told that `latest` is the latest block. -/
def Told (W : Watch) (s : Indexing) (moves : List IndexerMove) (latest : Nat) : Prop :=
  ∃ c ∈ Machine.commits W.step s moves, c.2 = .blockNumber latest

end Watch

/-- What an accepted move does to a poll, and to the cursor. -/
inductive Watch.Advances (W : Watch) (s : Indexing) (move : IndexerMove) (s' : Indexing) : Prop
  | stays (same : s'.polling = s.polling) (kept : W.cursor s' = W.cursor s)
  | starts (free : s.polling = .idle) (asks : s'.polling = .blockNumber)
      (kept : W.cursor s' = W.cursor s)
  | told {latest : Nat} (asked : s.polling = .blockNumber) (answer : move = .blockNumber latest)
      (goesOn : s'.polling = nextWindow latest (W.cursor s)) (kept : W.cursor s' = W.cursor s)
  | fetched {latest cursor : Nat} (asked : s.polling = .events latest cursor)
      (has : s'.polling = .enqueue latest (windowEnd latest cursor)
        (W.events cursor (windowEnd latest cursor)))
      (kept : W.cursor s' = W.cursor s)
  | enqueued {latest toBlock : Nat} {event : ChainInstruction} {rest : List ChainInstruction}
      (had : s.polling = .enqueue latest toBlock (event :: rest))
      (left : s'.polling = .enqueue latest toBlock rest) (kept : W.cursor s' = W.cursor s)
  | saved {latest toBlock : Nat} (done : s.polling = .enqueue latest toBlock [])
      (goesOn : s'.polling = nextWindow latest (toBlock + 1))
      (moved : W.cursor s' = toBlock + 1)
  | failed (fails : Fails s move)

theorem createJob_cursors {s s' : Store} {job : Job} {uuid type account : String} {now : Nat}
    {payload : Payload} {key : Option String}
    (h : s.createJob uuid now type account payload key = .ok (job, s')) :
    s'.cursors = s.cursors := by
  rcases createJob_ok h with ⟨rfl, _⟩ | ⟨_, _, _, rfl⟩
  · rfl
  · rfl

section Poll

variable {W : Watch} {s s' : Indexing} {latest : Nat} {moves : List IndexerMove}

theorem step_advances {move : IndexerMove} (h : W.step s move = .ok s') :
    W.Advances s move s' := by
  cases move with
  | mine =>
      cases h
      exact .stays rfl rfl
  | timer =>
      unfold Watch.step at h
      cases hpolling : s.polling with
      | idle =>
          simp only [hpolling] at h
          cases h
          exact .starts hpolling rfl rfl
      | blockNumber | events | enqueue => simp [hpolling] at h
  | blockNumber latest =>
      unfold Watch.step at h
      cases hpolling : s.polling with
      | blockNumber =>
          simp only [hpolling] at h
          by_cases hmined : latest ≤ s.head
          · rw [if_pos hmined] at h
            cases h
            exact .told hpolling rfl rfl rfl
          · rw [if_neg hmined] at h
            cases h
      | idle | events | enqueue => simp [hpolling] at h
  | events =>
      unfold Watch.step at h
      cases hpolling : s.polling with
      | events latest cursor =>
          simp only [hpolling] at h
          cases h
          exact .fetched hpolling rfl rfl
      | idle | blockNumber | enqueue => simp [hpolling] at h
  | enqueue uuid now =>
      unfold Watch.step at h
      cases hpolling : s.polling with
      | enqueue latest toBlock rest =>
          cases rest with
          | nil => simp [hpolling] at h
          | cons event rest =>
              simp only [hpolling] at h
              cases henqueue : s.store.enqueueChain uuid now event.account event.command
                  event.requestID event.blockNumber event.externalKey with
              | error cause =>
                  refine .failed fun latest' toBlock' event' rest' hat => ⟨cause, ?_⟩
                  rw [hpolling] at hat
                  cases hat
                  exact henqueue
              | ok answer =>
                  rw [henqueue] at h
                  cases h
                  refine .enqueued hpolling rfl ?_
                  unfold Watch.cursor Store.getCursor
                  rw [createJob_cursors henqueue]
      | idle | blockNumber | events => simp [hpolling] at h
  | saveCursor =>
      unfold Watch.step at h
      cases hpolling : s.polling with
      | enqueue latest toBlock rest =>
          cases rest with
          | cons event rest => simp [hpolling] at h
          | nil =>
              simp only [hpolling] at h
              cases h
              exact .saved hpolling rfl (getCursor_setCursor cursorName (toBlock + 1) W.startBlock)
      | idle | blockNumber | events => simp [hpolling] at h
  | fail => exact .failed trivial
  | crash => exact .failed trivial
  | elsewhere write =>
      unfold Watch.step at h
      cases hwrite : write.apply s.store with
      | error e => simp [hwrite] at h
      | ok answer =>
          obtain ⟨job, store⟩ := answer
          simp only [hwrite] at h
          cases h
          refine .stays rfl ?_
          unfold Watch.cursor Store.getCursor
          rw [(jobWrite_entries hwrite).1]

/-- A poll that knows the latest block ends with the cursor past it. -/
def Polling.KnowsLatest (latest : Nat) : Polling → Prop
  | .events known _ | .enqueue known _ _ => known = latest
  | .idle | .blockNumber => False

theorem knows_nextWindow {cursor : Nat} (h : cursor ≤ latest) :
    (nextWindow latest cursor).KnowsLatest latest := by
  unfold nextWindow
  rw [if_pos h]
  rfl

/-- Each step of it keeps what it knows, or ends it past that block. -/
theorem knows_step {move : IndexerMove} (h : W.Indexed s) (hknows : s.polling.KnowsLatest latest)
    (hclean : ¬ Watch.Fails s move) (hstep : W.step s move = .ok s') :
    s'.polling.KnowsLatest latest ∨ s'.polling = .idle ∧ W.cursor s' = latest + 1 := by
  have hwindow := h.window
  unfold Watch.InWindow at hwindow
  cases step_advances hstep with
  | stays hsame _ =>
      rw [hsame]
      exact Or.inl hknows
  | starts hfree | told hfree =>
      rw [hfree] at hknows
      exact hknows.elim
  | fetched hasked hhas _ =>
      rw [hasked] at hknows
      rw [hhas]
      exact Or.inl hknows
  | enqueued hhad hleft _ =>
      rw [hhad] at hknows
      rw [hleft]
      exact Or.inl hknows
  | @saved known toBlock hdone hgoes hmoved =>
      rw [hdone] at hknows hwindow
      obtain rfl : known = latest := hknows
      obtain ⟨_, hto, _⟩ := hwindow
      rw [hgoes, hmoved]
      by_cases hmore : toBlock + 1 ≤ known
      · exact Or.inl (knows_nextWindow hmore)
      · refine Or.inr ⟨if_neg hmore, ?_⟩
        omega
  | failed hfails => exact absurd hfails hclean

theorem Watch.Finishes.cons_ok {move : IndexerMove} (h : W.Finishes s (move :: moves))
    (hstep : W.step s move = .ok s') :
    s.polling ≠ .idle ∧ ¬ Fails s move ∧ W.Finishes s' moves := by
  obtain ⟨hbusy, hbusy'⟩ := h.busy.cons_ok hstep
  obtain ⟨hclean, hclean'⟩ := h.clean.cons_ok hstep
  have hends := h.ends
  rw [Machine.run_cons, Machine.next_ok hstep] at hends
  exact ⟨hbusy, hclean, hbusy', hclean', hends⟩

theorem Watch.Finishes.cons_error {move : IndexerMove} {cause : Unmoved}
    (h : W.Finishes s (move :: moves)) (hstep : W.step s move = .error cause) :
    W.Finishes s moves := by
  have hends := h.ends
  rw [Machine.run_cons, Machine.next_error hstep] at hends
  exact ⟨h.busy.cons_error hstep, h.clean.cons_error hstep, hends⟩

/-- Once it has ended, no move belongs to it. -/
theorem idle_finishes (hidle : s.polling = .idle) (hfinishes : W.Finishes s moves) :
    Machine.run W.step s moves = s := by
  induction moves with
  | nil => rfl
  | cons move rest ih =>
      rw [Machine.run_cons]
      cases hstep : W.step s move with
      | error cause =>
          rw [Machine.next_error hstep]
          exact ih (hfinishes.cons_error hstep)
      | ok s' => exact absurd hidle (hfinishes.cons_ok hstep).1

/-- From the moment it knows the latest block, a poll ends past it. -/
theorem knows_finishes (h : W.Indexed s) (hknows : s.polling.KnowsLatest latest)
    (hfinishes : W.Finishes s moves) : W.cursor (Machine.run W.step s moves) = latest + 1 := by
  induction moves generalizing s with
  | nil =>
      have hidle : s.polling = .idle := hfinishes.ends
      rw [hidle] at hknows
      exact hknows.elim
  | cons move rest ih =>
      rw [Machine.run_cons]
      cases hstep : W.step s move with
      | error cause =>
          rw [Machine.next_error hstep]
          exact ih h hknows (hfinishes.cons_error hstep)
      | ok s' =>
          rw [Machine.next_ok hstep]
          obtain ⟨_, hclean, hrest⟩ := hfinishes.cons_ok hstep
          rcases knows_step h hknows hclean hstep with hknows' | ⟨hidle, hcursor⟩
          · exact ih (h.step hstep).1 hknows' hrest
          · rw [idle_finishes hidle hrest, hcursor]

/-- A poll that has asked for the latest block is told it, and ends past it. -/
theorem asked_finishes (h : W.Indexed s) (hasked : s.polling = .blockNumber)
    (hfinishes : W.Finishes s moves) : ∃ latest, W.Told s moves latest ∧
      W.cursor (Machine.run W.step s moves) = max (W.cursor s) (latest + 1) := by
  induction moves generalizing s with
  | nil =>
      have hidle : s.polling = .idle := hfinishes.ends
      rw [hasked] at hidle
      cases hidle
  | cons move rest ih =>
      rw [Machine.run_cons]
      cases hstep : W.step s move with
      | error cause =>
          rw [Machine.next_error hstep]
          obtain ⟨latest, ⟨c, hc, htold⟩, hcursor⟩ := ih h hasked (hfinishes.cons_error hstep)
          refine ⟨latest, ⟨c, ?_, htold⟩, hcursor⟩
          simpa only [Machine.commits, hstep] using hc
      | ok s' =>
          rw [Machine.next_ok hstep]
          obtain ⟨_, hclean, hrest⟩ := hfinishes.cons_ok hstep
          have hcommits : Machine.commits W.step s (move :: rest) =
              (s, move) :: Machine.commits W.step s' rest := by simp only [Machine.commits, hstep]
          have hindexed := (h.step hstep).1
          cases step_advances hstep with
          | stays hsame hkept =>
              obtain ⟨latest, ⟨c, hc, htold⟩, hcursor⟩ := ih hindexed (hsame.trans hasked) hrest
              rw [hkept] at hcursor
              exact ⟨latest, ⟨c, hcommits ▸ List.mem_cons_of_mem _ hc, htold⟩, hcursor⟩
          | @told latest _ hanswer hgoes hkept =>
              refine ⟨latest, ⟨(s, move), hcommits ▸ List.mem_cons_self, hanswer⟩, ?_⟩
              by_cases hmore : W.cursor s ≤ latest
              · rw [knows_finishes hindexed (hgoes ▸ knows_nextWindow hmore) hrest]
                omega
              · rw [idle_finishes (hgoes.trans (if_neg hmore)) hrest, hkept]
                omega
          | failed hfails => exact absurd hfails hclean
          | starts hother | fetched hother | enqueued hother | saved hother =>
              rw [hasked] at hother
              cases hother

end Poll

/-! ### Every run -/

section Run

variable {W : Watch}

theorem indexed_init : W.Indexed {} := by
  refine ⟨List.Pairwise.nil, fun block hfrom hto => ?_, fun entry hentry => ?_, le_rfl, trivial⟩
  · exact absurd hto (Nat.not_lt.mpr hfrom)
  · simp [Store.entries] at hentry

theorem indexed_after (W : Watch) (moves : List IndexerMove) : W.Indexed (W.after moves) :=
  Machine.invariant (fun _ _ _ h hstep => (Watch.Indexed.step h hstep).1) indexed_init moves

/-- The cursor never moves back. -/
theorem cursor_le_run (moves more : List IndexerMove) :
    W.cursor (W.after moves) ≤ W.cursor (W.after (moves ++ more)) := by
  unfold Watch.after
  rw [Machine.run_append]
  have hlater : ∀ s, W.Indexed s → W.Indexed (Machine.run W.step s more) ∧
      W.cursor s ≤ W.cursor (Machine.run W.step s more) := by
    intro s hs
    have hkept : ∀ t move t', (W.Indexed t ∧ W.cursor s ≤ W.cursor t) →
        W.step t move = .ok t' → W.Indexed t' ∧ W.cursor s ≤ W.cursor t' := by
      intro t move t' ht hstep
      obtain ⟨hindexed, hcursor⟩ := ht.1.step hstep
      exact ⟨hindexed, ht.2.trans hcursor⟩
    exact Machine.invariant hkept ⟨hs, le_rfl⟩ more
  exact (hlater _ (indexed_after W moves)).2

end Run

/-- **Every request on the chain gets exactly one job**: after any run of the indexer, with whatever
timers, failures, crashes and other writes in between. -/
theorem one_job_per_request (W : Watch) (moves : List IndexerMove) :
    -- the stored cursor never decreases
    (∀ more, W.cursor (W.after moves) ≤ W.cursor (W.after (moves ++ more))) ∧
    -- a request below the cursor has one job, any other one at most
    (∀ block, W.startBlock ≤ block → block < W.cursor (W.after moves) → ∀ log ∈ W.logs block,
      (W.after moves).store.count (log.instruction W.keccak block).externalKey = 1) ∧
    (∀ key, (W.after moves).store.count key ≤ 1) ∧
    -- the job of a request has its log, in a block that is mined
    (∀ job ∈ (W.after moves).store.jobs, ∀ payload, job.payload = .chain payload →
      ∃ event, W.IsEvent W.startBlock (W.after moves).head event ∧
        job.externalKey = some event.externalKey ∧ payload = {
          command := event.command, requestID := event.requestID
          blockNumber := event.blockNumber }) ∧
    -- a poll without a failure ends past the block it was told of
    ((W.after moves).polling = .idle → ∀ rest, W.Finishes (W.after (moves ++ [.timer])) rest →
      ∃ latest, W.Told (W.after (moves ++ [.timer])) rest latest ∧
        W.cursor (W.after (moves ++ [.timer] ++ rest)) =
          max (W.cursor (W.after moves)) (latest + 1)) := by
  have hindexed := indexed_after W moves
  refine ⟨cursor_le_run moves, ?_, hindexed.single.count_le, ?_, ?_⟩
  · intro block hfrom hto log hlog
    have hpos := (hindexed.covered block hfrom hto log hlog).count_pos
    have hle := hindexed.single.count_le (log.instruction W.keccak block).externalKey
    omega
  · intro job hjob payload hpayload
    rcases hindexed.origin _ (List.mem_map_of_mem hjob) with ⟨direct, heq⟩ | ⟨event, hevent, heq⟩
    · obtain ⟨_, hdirect⟩ := Prod.mk.inj heq
      rw [hpayload] at hdirect
      cases hdirect
    · obtain ⟨hkey, hchain⟩ := Prod.mk.inj heq
      rw [hpayload] at hchain
      exact ⟨event, hevent, hkey, Payload.chain.inj hchain⟩
  · intro hidle rest hfinishes
    have hstarted : W.after (moves ++ [.timer]) =
        { W.after moves with polling := .blockNumber } := by
      have hstep : W.step (W.after moves) .timer =
          .ok { W.after moves with polling := .blockNumber } := by
        unfold Watch.step
        simp only [hidle]
      unfold Watch.after at hstep ⊢
      rw [Machine.run_append, Machine.run_cons, Machine.next_ok hstep]
      rfl
    have hrun : W.after (moves ++ [.timer] ++ rest) =
        Machine.run W.step (W.after (moves ++ [.timer])) rest := by
      unfold Watch.after
      rw [Machine.run_append]
    have hasked : (W.after (moves ++ [.timer])).polling = .blockNumber := by rw [hstarted]
    have hcursor : W.cursor (W.after (moves ++ [.timer])) = W.cursor (W.after moves) := by
      rw [hstarted]
      rfl
    rw [hrun, ← hcursor]
    exact asked_finishes (indexed_after W _) hasked hfinishes

/-- A chain with one request, in block 3. -/
def sampleWatch : Watch where
  keccak := Bytes.Fixed.ofList 32
  logs block :=
    if block = 3 then
      [.confidentialRequestSubmitted (Bytes.Fixed.ofList 32 [7]) (Bytes.Fixed.ofList 32 [82])
        (Bytes.Fixed.ofList 20 [1])]
    else []
  startBlock := 1

/-- The relayer crashes before it saves the cursor, and reads the request again. -/
def sampleMoves : List IndexerMove := [
  .mine, .mine, .mine, .timer, .blockNumber 3, .events, .enqueue "j1" 10, .crash,
  .mine, .timer, .blockNumber 3, .events, .enqueue "j2" 20, .saveCursor]

theorem one_job_per_request_sample : ∀ log ∈ sampleWatch.logs 3,
    (sampleWatch.after sampleMoves).store.count
      (log.instruction sampleWatch.keccak 3).externalKey = 1 :=
  (one_job_per_request sampleWatch sampleMoves).2.1 3 (by decide) (by decide +kernel)

end QuietLine.Relayer
