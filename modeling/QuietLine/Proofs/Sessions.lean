/-
What a session is worth.

A challenge is a row that is taken out when it is redeemed, so it is redeemed once;
the signature is checked after that, and whatever comes in between finds no row.  That
and what the server shows are one invariant, kept by every move: requests, signature
checks, turns of the orchestrator, jobs it emits, restarts.

  * Each token that was sent stands for a challenge of its own, issued to the wallet at
    most five minutes before and signed by it.
  * What a session is shown are jobs of its own account.
-/
import Mathlib.Data.List.Perm.Basic
import QuietLine.Relayer.Server
import QuietLine.Proofs.Lifecycle

namespace QuietLine.Relayer

open Outcome List

/-! ### Challenges -/

/-- The challenge that was redeemed for the call. -/
structure Redeems (s : Sessions) (v : Verifying) (m : SessionMessage) : Prop where
  issued : s.issued[v.number]? = some m
  wallet : toLower m.wallet = toLower v.message.wallet
  nonce : m.nonce = v.message.nonce
  inTime : v.now ≤ m.expiresAt

/-- Every row is an issued challenge, and every call has redeemed one that nothing else has. -/
structure Sessions.Tracked (A : AuthLibrary) (s : Sessions) : Prop where
  window : ∀ m ∈ s.issued, m.expiresAt = m.issuedAt + 300
  row : ∀ a c, s.challenges a = some c → ∃ m, s.issued[c.number]? = some m ∧
    toLower m.wallet = a ∧ m.nonce = c.nonce ∧ m.expiresAt = c.expiresAt
  redeemed : ∀ v ∈ s.verifying ++ s.created, ∃ m, Redeems s v m
  once : ((s.verifying ++ s.created).map Verifying.number).Nodup
  fresh : ∀ a c, s.challenges a = some c → ∀ v ∈ s.verifying ++ s.created, v.number ≠ c.number
  signed : ∀ v ∈ s.created, A.verifyTypedData v.message v.signature = .ok true

section Challenges

variable {A : AuthLibrary} {s : Sessions}

theorem Redeems.lt {v : Verifying} {m : SessionMessage} (h : Redeems s v m) :
    v.number < s.issued.length :=
  (List.getElem?_eq_some_iff.mp h.issued).1

/-- A challenge takes the place of the one before. -/
theorem Sessions.Tracked.challenge (h : s.Tracked A) (now : Nat) (address nonce : String) :
    (s.challenge now address nonce).2.Tracked A := by
  have hkeep : ∀ {n : Nat} {m : SessionMessage}, s.issued[n]? = some m →
      (s.challenge now address nonce).2.issued[n]? = some m := by
    intro n m hm
    exact (List.getElem?_append_left (List.getElem?_eq_some_iff.mp hm).1).trans hm
  refine ⟨?_, ?_, ?_, h.once, ?_, h.signed⟩
  · intro m hm
    rcases List.mem_append.mp hm with hm | hm
    · exact h.window m hm
    · rw [List.mem_singleton.mp hm]
  · intro a c hc
    simp only [Sessions.challenge, Sessions.putChallenge] at hc
    split at hc
    · next ha =>
      cases hc
      exact ⟨_, List.getElem?_concat_length, ha.symm, rfl, rfl⟩
    · obtain ⟨m, hm, hrest⟩ := h.row a c hc
      exact ⟨m, hkeep hm, hrest⟩
  · intro v hv
    obtain ⟨m, hm⟩ := h.redeemed v hv
    exact ⟨m, hkeep hm.issued, hm.wallet, hm.nonce, hm.inTime⟩
  · intro a c hc v hv
    obtain ⟨m, hm⟩ := h.redeemed v hv
    simp only [Sessions.challenge, Sessions.putChallenge] at hc
    split at hc
    · cases hc
      exact Nat.ne_of_lt hm.lt
    · exact h.fresh a c hc v hv

theorem consumeChallenge_some {address nonce : String} {now : Nat} {c : Challenge} {s' : Sessions}
    (h : s.consumeChallenge address nonce now = some (c, s')) :
    s.challenges (toLower address) = some c ∧ c.nonce = nonce ∧ now ≤ c.expiresAt ∧
      s' = { s with challenges := fun a =>
        if a = toLower address then none else s.challenges a } := by
  unfold Sessions.consumeChallenge at h
  cases hrow : s.challenges (toLower address) with
  | none => rw [hrow] at h; cases h
  | some row =>
      simp only [hrow] at h
      split at h
      · cases h
      · next hgood =>
        cases h
        simp only [not_or, not_not, Nat.not_lt] at hgood
        exact ⟨rfl, hgood.1, hgood.2, rfl⟩

/-- **A challenge is redeemed by taking it out.** -/
theorem Sessions.Tracked.createSession (h : s.Tracked A) {now : Nat} {message : SessionMessage}
    {signature : String} {s' : Sessions} (hs : s.createSession now message signature = .ok s') :
    s'.Tracked A ∧ s'.issued = s.issued := by
  unfold Sessions.createSession at hs
  obtain ⟨_, _, hs⟩ := bind_eq_ok.mp hs
  obtain ⟨⟨c, taken⟩, htaken, hs⟩ := bind_eq_ok.mp hs
  cases hs
  obtain ⟨hc, hnonce, htime, rfl⟩ := consumeChallenge_some (orElse_eq_ok.mp htaken)
  obtain ⟨m, hm, hwallet, hmnonce, hexpires⟩ := h.row _ c hc
  obtain ⟨begun, hbegun⟩ : ∃ v : Verifying, v = ⟨message, signature, now, c.number⟩ := ⟨_, rfl⟩
  have hperm : ((s.verifying ++ [begun]) ++ s.created).Perm
      (begun :: (s.verifying ++ s.created)) := by
    rw [List.append_assoc]
    exact List.perm_middle
  rw [← hbegun]
  refine ⟨⟨h.window, ?_, ?_, ?_, ?_, h.signed⟩, rfl⟩
  · intro a c' hc'
    simp only at hc'
    split at hc'
    · cases hc'
    · exact h.row a c' hc'
  · intro v hv
    rcases List.mem_cons.mp (hperm.mem_iff.mp hv) with rfl | hv
    · rw [hbegun]
      exact ⟨m, hm, hwallet, hmnonce.trans hnonce, by rw [hexpires]; exact htime⟩
    · obtain ⟨m', hm'⟩ := h.redeemed v hv
      exact ⟨m', hm'.issued, hm'.wallet, hm'.nonce, hm'.inTime⟩
  · refine (hperm.map Verifying.number).nodup_iff.mpr (List.nodup_cons.mpr ⟨?_, h.once⟩)
    intro hin
    obtain ⟨v, hv, hnumber⟩ := List.mem_map.mp hin
    rw [hbegun] at hnumber
    exact h.fresh _ c hc v hv hnumber
  · intro a c' hc' v hv
    simp only at hc'
    split at hc'
    · cases hc'
    · next hne =>
      rcases List.mem_cons.mp (hperm.mem_iff.mp hv) with rfl | hv
      · intro hnumber
        rw [hbegun] at hnumber
        obtain ⟨m', hm', hwallet', _⟩ := h.row a c' hc'
        rw [← hnumber, hm] at hm'
        cases hm'
        exact hne (hwallet'.symm.trans hwallet)
      · exact h.fresh a c' hc' v hv

theorem createSession_created {now : Nat} {message : SessionMessage} {signature : String}
    {s' : Sessions} (hs : s.createSession now message signature = .ok s') :
    s'.created = s.created := by
  unfold Sessions.createSession at hs
  obtain ⟨_, _, hs⟩ := bind_eq_ok.mp hs
  obtain ⟨⟨c, taken⟩, htaken, hs⟩ := bind_eq_ok.mp hs
  cases hs
  obtain ⟨_, _, _, rfl⟩ := consumeChallenge_some (orElse_eq_ok.mp htaken)
  rfl

theorem sessionCreated_cases (A : AuthLibrary) (s : Sessions) (i : Nat) (v : Verifying) :
    (A.verifyTypedData v.message v.signature = .ok true ∧ s.sessionCreated A i v =
        (.ok (A.sign v.payload),
          { s with verifying := s.verifying.eraseIdx i, created := s.created ++ [v] })) ∨
      ∃ e, s.sessionCreated A i v = (.error e, { s with verifying := s.verifying.eraseIdx i }) := by
  unfold Sessions.sessionCreated
  split
  · next hsigned => exact Or.inl ⟨hsigned, rfl⟩
  · exact Or.inr ⟨_, rfl⟩
  · exact Or.inr ⟨_, rfl⟩

/-- The signature has been checked. -/
theorem Sessions.Tracked.sessionCreated (h : s.Tracked A) {i : Nat} {v : Verifying}
    (hv : s.verifying[i]? = some v) : (s.sessionCreated A i v).2.Tracked A := by
  obtain ⟨hlt, rfl⟩ := List.getElem?_eq_some_iff.mp hv
  rcases sessionCreated_cases A s i s.verifying[i] with ⟨hsigned, hs⟩ | ⟨e, hs⟩
  · rw [hs]
    have hperm : (s.verifying.eraseIdx i ++ (s.created ++ [s.verifying[i]])).Perm
        (s.verifying ++ s.created) :=
      calc s.verifying.eraseIdx i ++ (s.created ++ [s.verifying[i]])
        _ ~ s.verifying.eraseIdx i ++ (s.verifying[i] :: s.created) :=
            (List.perm_append_singleton _ _).append_left _
        _ ~ (s.verifying[i] :: s.verifying.eraseIdx i) ++ s.created := List.perm_middle
        _ ~ s.verifying ++ s.created := (List.getElem_cons_eraseIdx_perm hlt).append_right _
    refine ⟨h.window, h.row, ?_, (hperm.map _).nodup_iff.mpr h.once, ?_, ?_⟩
    · intro w hw
      obtain ⟨m, hm⟩ := h.redeemed w (hperm.mem_iff.mp hw)
      exact ⟨m, hm.issued, hm.wallet, hm.nonce, hm.inTime⟩
    · intro a c hc w hw
      exact h.fresh a c hc w (hperm.mem_iff.mp hw)
    · intro w hw
      rcases List.mem_append.mp hw with hw | hw
      · exact h.signed w hw
      · rw [List.mem_singleton.mp hw]
        exact hsigned
  · rw [hs]
    have hsub := (List.eraseIdx_sublist s.verifying i).append_right s.created
    refine ⟨h.window, h.row, ?_, h.once.sublist (hsub.map _), ?_, h.signed⟩
    · intro w hw
      obtain ⟨m, hm⟩ := h.redeemed w (hsub.subset hw)
      exact ⟨m, hm.issued, hm.wallet, hm.nonce, hm.inTime⟩
    · intro a c hc w hw
      exact h.fresh a c hc w (hsub.subset hw)

theorem Sessions.Tracked.restart (h : s.Tracked A) : { s with verifying := [] }.Tracked A := by
  have hsub : (([] : List Verifying) ++ s.created).Sublist (s.verifying ++ s.created) :=
    List.Sublist.append_right (List.nil_sublist _) _
  refine ⟨h.window, h.row, ?_, h.once.sublist (hsub.map _), ?_, h.signed⟩
  · intro w hw
    obtain ⟨m, hm⟩ := h.redeemed w (hsub.subset hw)
    exact ⟨m, hm.issued, hm.wallet, hm.nonce, hm.inTime⟩
  · intro a c hc w hw
    exact h.fresh a c hc w (hsub.subset hw)

end Challenges

/-! ### What is sent -/

def challengeSent (e : Recipient × Response) : Option SessionMessage :=
  match e.2.body with
  | .challenge message => some message
  | _ => none

def tokenSent (e : Recipient × Response) : Option String :=
  match e.2.body with
  | .token token _ => some token
  | _ => none

/-- The jobs that a body shows. -/
def Body.shown : Body → List PublicJob
  | .job shown => [shown]
  | .updated shown => [shown]
  | .jobs shown => shown
  | _ => []

/-- A session is shown its own account's jobs, the operator no response of the extension, and who
has no session nothing. -/
def Isolated (e : Recipient × Response) : Prop :=
  ∀ job ∈ e.2.body.shown, match e.1 with
    | .anyone => False
    | .session account => toLower job.account = toLower account
    | .operations => job.response = none

/-- The commands of the direct routes. -/
def enqueuedCommands : List String := directCommands.flatMap fun route => route.2.commands

/-- A token of the account has let a request through. -/
def Server.Admitted (s : Server) (account : String) : Prop :=
  ∃ x ∈ s.admitted, x.1.sub = account

/-- The response goes to a session that was let through, and shows it what it may see. -/
structure Proper (s : Server) (e : Recipient × Response) : Prop where
  admitted : ∀ account, e.1 = .session account → s.Admitted account
  isolated : Isolated e

/-- A direct job is one that a session of its account asked for by a direct route. -/
def Asked (s : Server) (row : Job) : Prop :=
  ∀ p, row.payload = .direct p → p.command ∈ enqueuedCommands ∧ s.Admitted row.account

/-- What holds of the server between two moves. -/
structure Guarded (C : ServerConfig) (s : Server) : Prop where
  sound : Sound False s.orchestrator
  forward : Forward s.orchestrator
  tracked : s.sessions.Tracked C.auth
  challenges : s.sent.filterMap challengeSent = s.sessions.issued
  tokens : s.sent.filterMap tokenSent = s.sessions.created.map fun v => C.auth.sign v.payload
  submissions : ∀ x ∈ s.submissions,
    (∃ route, (route, x.allowed) ∈ directCommands) ∧ s.Admitted x.session.sub
  streams : ∀ account ∈ s.streams, s.Admitted account
  sent : ∀ e ∈ s.sent, Proper s e
  jobs : ∀ row ∈ s.orchestrator.store.jobs, Asked s row

section Server

variable {C : ServerConfig} {s : Server}

/-- The responses are neither challenges nor tokens. -/
theorem Guarded.sends (h : Guarded C s) {es : List (Recipient × Response)}
    (hplain : ∀ e ∈ es, challengeSent e = none ∧ tokenSent e = none)
    (hproper : ∀ e ∈ es, Proper s e) : Guarded C { s with sent := s.sent ++ es } := by
  have hchallenges : es.filterMap challengeSent = [] :=
    List.filterMap_eq_nil_iff.mpr fun e he => (hplain e he).1
  have htokens : es.filterMap tokenSent = [] :=
    List.filterMap_eq_nil_iff.mpr fun e he => (hplain e he).2
  refine ⟨h.sound, h.forward, h.tracked, ?_, ?_, h.submissions, h.streams, ?_, h.jobs⟩
  · rw [List.filterMap_append, hchallenges, List.append_nil]
    exact h.challenges
  · rw [List.filterMap_append, htokens, List.append_nil]
    exact h.tokens
  · intro e he
    rcases List.mem_append.mp he with he | he
    · exact ⟨(h.sent e he).admitted, (h.sent e he).isolated⟩
    · exact ⟨(hproper e he).admitted, (hproper e he).isolated⟩

theorem Guarded.send (h : Guarded C s) {recipient : Recipient} {response : Response}
    (hplain : challengeSent (recipient, response) = none ∧ tokenSent (recipient, response) = none)
    (hproper : Proper s (recipient, response)) : Guarded C (s.send recipient response) := by
  refine h.sends ?_ ?_
  · intro e he
    rw [List.mem_singleton.mp he]
    exact hplain
  · intro e he
    rw [List.mem_singleton.mp he]
    exact hproper

/-- An error shows nothing. -/
theorem Guarded.refuses (h : Guarded C s) {recipient : Recipient} {status : Nat} {error : String}
    {message : Option String} (hadmitted : ∀ account, recipient = .session account →
      s.Admitted account) : Guarded C (s.send recipient { status, body := .error error message }) :=
  h.send ⟨rfl, rfl⟩ ⟨hadmitted, fun _ hjob => by cases hjob⟩

theorem Guarded.throws (h : Guarded C s) {recipient : Recipient} (e : ServerError)
    (hadmitted : ∀ account, recipient = .session account → s.Admitted account) :
    Guarded C (s.throws recipient e) := by
  unfold Server.throws ServerError.response
  cases e with
  | zod => exact h.refuses hadmitted
  | readiness message => exact h.refuses hadmitted
  | other message =>
      dsimp only
      split
      · exact h.refuses hadmitted
      · exact h.refuses hadmitted

theorem anyone_admitted (s : Server) (account : String) (h : Recipient.anyone = .session account) :
    s.Admitted account := by
  cases h

theorem Server.Admitted.admitSession {account : String} (h : s.Admitted account) (now : Nat)
    (session : SessionPayload) : (s.admitSession now session).Admitted account := by
  obtain ⟨x, hx, hsub⟩ := h
  exact ⟨x, List.mem_append_left _ hx, hsub⟩

theorem admitted_admitSession (s : Server) (now : Nat) (session : SessionPayload) :
    (s.admitSession now session).Admitted session.sub :=
  ⟨_, List.mem_append_right _ List.mem_cons_self, rfl⟩

theorem Guarded.admitSession (h : Guarded C s) (now : Nat) (session : SessionPayload) :
    Guarded C (s.admitSession now session) := by
  refine ⟨h.sound, h.forward, h.tracked, h.challenges, h.tokens, ?_, ?_, ?_, ?_⟩
  · exact fun x hx => ⟨(h.submissions x hx).1, (h.submissions x hx).2.admitSession now session⟩
  · exact fun account ha => (h.streams account ha).admitSession now session
  · exact fun e he => ⟨fun account ha =>
      ((h.sent e he).admitted account ha).admitSession now session,
      (h.sent e he).isolated⟩
  · intro row hrow p hp
    exact ⟨(h.jobs row hrow p hp).1, (h.jobs row hrow p hp).2.admitSession now session⟩

/-- A turn of the orchestrator adds only what was asked for. -/
theorem Guarded.turn (h : Guarded C s) {t : Turn} {o : Orchestrator}
    (hstep : s.orchestrator.step t = .ok o) (hinserts : ∀ job, t.Inserts job → Asked s job) :
    Guarded C { s with orchestrator := o } := by
  obtain ⟨hforward, added, hadded, hgrows⟩ := step_forward h.sound h.forward hstep
  refine ⟨sound_step h.sound hstep, hforward, h.tracked, h.challenges, h.tokens, h.submissions,
    h.streams, fun e he => ⟨(h.sent e he).admitted, (h.sent e he).isolated⟩, ?_⟩
  intro row' hrow' p hp
  obtain ⟨row, hrow, hprecedes⟩ := (precedes_mem hgrows).2 row' hrow'
  have hasked : Asked s row := by
    rcases List.mem_append.mp hrow with hrow | hrow
    · exact h.jobs row hrow
    · exact hinserts row (hadded row hrow)
  rw [hprecedes.account]
  exact hasked p (by rw [← hprecedes.payload]; exact hp)

/-- A job is enqueued or retried, and shown. -/
theorem Guarded.wakes (h : Guarded C s) {t : Turn} {x : Except StoreError (Job × Store)}
    {recipient : Recipient} {status : Nat} {includeResponse : Bool}
    (hstep : s.orchestrator.step t = s.orchestrator.woken t.now t.tie x)
    (hinserts : ∀ job, t.Inserts job → Asked s job)
    (hadmitted : ∀ account, recipient = .session account → s.Admitted account)
    (hisolated : ∀ job store, x = .ok (job, store) →
      Isolated (recipient, { status, body := .job (publicJob job includeResponse) })) :
    Guarded C (s.wakes t.now t.tie recipient status includeResponse x) := by
  cases x with
  | error cause => exact h.throws _ hadmitted
  | ok result =>
      exact (h.turn hstep hinserts).send ⟨rfl, rfl⟩ ⟨hadmitted, hisolated _ _ rfl⟩

theorem Guarded.withSession (h : Guarded C s) {now : Nat} {authorization : Option String}
    {handler : SessionPayload → Server → Server}
    (hhandler : ∀ session s', Guarded C s' → s'.Admitted session.sub →
      s'.orchestrator = s.orchestrator → Guarded C (handler session s')) :
    Guarded C (s.withSession C now authorization handler) := by
  unfold Server.withSession
  cases hauth : C.authenticated now authorization with
  | ok session =>
      exact hhandler session _ (h.admitSession now session)
        (admitted_admitSession s now session) rfl
  | error response =>
      unfold ServerConfig.authenticated at hauth
      split at hauth
      · cases hauth
        exact h.refuses (anyone_admitted s)
      · split at hauth
        · cases hauth
        · cases hauth
          exact h.refuses (anyone_admitted s)

theorem session_admitted {account : String} (h : s.Admitted account) (account' : String)
    (heq : Recipient.session account = .session account') : s.Admitted account' := by
  cases heq
  exact h

/-- A job that a session asks for by its id is its account's, or is not shown. -/
theorem ownJob_ok {session : SessionPayload} {jobID : String} {job : Job}
    (h : s.ownJob session jobID = .ok job) :
    s.orchestrator.store.getJob jobID = some job ∧ job.account = session.sub := by
  unfold Server.ownJob at h
  cases hjob : s.orchestrator.store.getJob jobID with
  | none => rw [hjob] at h; cases h
  | some found =>
      rw [hjob] at h
      simp only at h
      split at h
      · cases h
      · next hsame =>
        cases h
        exact ⟨rfl, not_not.mp hsame⟩

theorem ownJob_error {session : SessionPayload} {jobID : String} {response : Response}
    (h : s.ownJob session jobID = .error response) :
    ∃ status error, response = { status, body := .error error none } := by
  unfold Server.ownJob at h
  split at h
  · cases h
    exact ⟨_, _, rfl⟩
  · split at h
    · cases h
      exact ⟨_, _, rfl⟩
    · cases h

/-- The job that a retry answers with has the account of the job it is of. -/
theorem resetForRetry_account {store store' : Store} (horderly : store.Orderly) {now : Nat}
    {jobID : String} {found job : Job} (hfound : store.getJob jobID = some found)
    (h : store.resetForRetry jobID now = .ok (job, store')) : job.account = found.account := by
  obtain ⟨row, hrow, rfl, _, hupdate⟩ := resetForRetry_ok h
  rw [horderly.getJob hrow] at hfound
  rw [horderly.updateJob hrow] at hupdate
  cases hfound
  cases hupdate
  rfl

theorem listJobs_account {store : Store} {account : String} {limit : Nat} {job : Job}
    (h : job ∈ store.listJobs account limit) : job.account = toLower account := by
  obtain ⟨row, hrow, rfl⟩ := List.mem_map.mp h
  have hmem := List.mem_mergeSort.mp (List.mem_of_mem_take hrow)
  exact of_decide_eq_true (List.mem_filter.mp hmem).2

theorem mem_of_lookup {route : String} {allowed : Allowed}
    (h : directCommands.lookup route = some allowed) : (route, allowed) ∈ directCommands := by
  obtain ⟨before, after, heq, _⟩ := List.lookup_eq_some_iff.mp h
  rw [heq]
  exact List.mem_append_right _ List.mem_cons_self

/-- **Every request leaves the server guarded.** -/
theorem Guarded.handle (h : Guarded C s) (now : Nat) (random : String) (tie : Nat) (r : Request) :
    Guarded C (s.handle C now random tie r) := by
  unfold Server.handle
  cases r with
  | challenge address =>
      dsimp only
      split
      · refine ⟨h.sound, h.forward, h.tracked.challenge _ _ _, ?_, ?_, h.submissions, h.streams, ?_,
          h.jobs⟩
        · exact List.filterMap_append.trans (congrArg (· ++ [_]) h.challenges)
        · exact List.filterMap_append.trans ((List.append_nil _).trans h.tokens)
        · intro e he
          rcases List.mem_append.mp he with he | he
          · exact ⟨(h.sent e he).admitted, (h.sent e he).isolated⟩
          · rw [List.mem_singleton.mp he]
            exact ⟨anyone_admitted s, fun _ hshown => by cases hshown⟩
      · exact h.throws _ (anyone_admitted s)
  | verify message signature =>
      dsimp only
      split
      · cases hcreate : s.sessions.createSession (seconds now) message signature with
        | error e => exact h.throws _ (anyone_admitted s)
        | ok sessions =>
            obtain ⟨htracked, hissued⟩ := h.tracked.createSession hcreate
            have hcreated := createSession_created hcreate
            exact ⟨h.sound, h.forward, htracked, h.challenges.trans hissued.symm,
              h.tokens.trans (congrArg (List.map _) hcreated.symm), h.submissions, h.streams,
              fun e he => ⟨(h.sent e he).admitted, (h.sent e he).isolated⟩, h.jobs⟩
      · exact h.throws _ (anyone_admitted s)
  | direct route authorization body =>
      dsimp only
      cases hroute : directCommands.lookup route with
      | none => exact h.refuses (anyone_admitted s)
      | some allowed =>
          refine h.withSession fun session s' h' hadmitted _ => ?_
          refine ⟨h'.sound, h'.forward, h'.tracked, h'.challenges, h'.tokens, ?_, h'.streams,
            fun e he => ⟨(h'.sent e he).admitted, (h'.sent e he).isolated⟩, h'.jobs⟩
          intro x hx
          rcases List.mem_append.mp hx with hx | hx
          · exact h'.submissions x hx
          · rw [List.mem_singleton.mp hx]
            exact ⟨⟨route, mem_of_lookup hroute⟩, hadmitted⟩
  | job authorization jobID =>
      refine h.withSession fun session s' h' hadmitted _ => ?_
      cases hown : s'.ownJob session jobID with
      | error response =>
          obtain ⟨status, error, rfl⟩ := ownJob_error hown
          exact h'.refuses (session_admitted hadmitted)
      | ok job =>
          refine h'.send ⟨rfl, rfl⟩ ⟨session_admitted hadmitted, fun shown hshown => ?_⟩
          rw [List.mem_singleton.mp hshown]
          exact congrArg toLower (ownJob_ok hown).2
  | jobs authorization =>
      refine h.withSession fun session s' h' hadmitted _ => ?_
      refine h'.send ⟨rfl, rfl⟩ ⟨session_admitted hadmitted, fun shown hshown => ?_⟩
      obtain ⟨job, hjob, rfl⟩ := List.mem_map.mp hshown
      show toLower job.account = _
      rw [listJobs_account hjob, toLower_toLower]
  | retry authorization jobID =>
      refine h.withSession fun session s' h' hadmitted _ => ?_
      cases hown : s'.ownJob session jobID with
      | error response =>
          obtain ⟨status, error, rfl⟩ := ownJob_error hown
          exact h'.refuses (session_admitted hadmitted)
      | ok found =>
          obtain ⟨hfound, haccount⟩ := ownJob_ok hown
          refine h'.wakes (t := { now, tie, entry := .retry jobID }) rfl (fun _ h => h.elim)
            (session_admitted hadmitted) fun job store hx shown hshown => ?_
          rw [List.mem_singleton.mp hshown]
          exact congrArg toLower
            ((resetForRetry_account h'.forward.store hfound hx).trans haccount)
  | events token =>
      dsimp only
      split
      · exact h.throws _ (anyone_admitted s)
      · cases hverify : C.auth.verify (seconds now) token with
        | error e => exact h.throws _ (anyone_admitted s)
        | ok session =>
            have h' := h.admitSession now session
            have hadmitted := admitted_admitSession s now session
            have hopened : Guarded C
                { s.admitSession now session with streams := s.streams ++ [session.sub] } := by
              refine ⟨h'.sound, h'.forward, h'.tracked, h'.challenges, h'.tokens, h'.submissions,
                ?_, fun e he => ⟨(h'.sent e he).admitted, (h'.sent e he).isolated⟩, h'.jobs⟩
              intro account ha
              rcases List.mem_append.mp ha with ha | ha
              · exact h'.streams account ha
              · rw [List.mem_singleton.mp ha]
                exact hadmitted
            exact hopened.send ⟨rfl, rfl⟩
              ⟨session_admitted hadmitted, fun _ hshown => by cases hshown⟩
  | operationsJob key externalKey =>
      dsimp only
      split
      · exact h.refuses (anyone_admitted s)
      · split
        · exact h.throws _ fun _ heq => by cases heq
        · cases s.orchestrator.store.getJobByExternalKey externalKey with
          | none => exact h.refuses fun _ heq => by cases heq
          | some job =>
              refine h.send ⟨rfl, rfl⟩ ⟨fun _ heq => (nomatch heq), fun shown hshown => ?_⟩
              rw [List.mem_singleton.mp hshown]
              rfl

theorem resolveCommand_mem {allowed : Allowed} {requested : Option String} {command : String}
    (h : resolveCommand allowed requested = .ok command) : command ∈ allowed.commands := by
  unfold resolveCommand at h
  cases allowed with
  | one only =>
      refine List.mem_singleton.mpr ?_
      dsimp only at h
      split at h
      · cases h; rfl
      · split at h
        · cases h; rfl
        · cases h
  | several commands =>
      dsimp only at h
      split at h
      · cases h
      · split at h
        · next hmem => cases h; exact hmem
        · cases h

/-- What a direct request enqueues is its session's own. -/
theorem Guarded.submit (h : Guarded C s) {submission : Submission}
    (hallowed : ∃ route, (route, submission.allowed) ∈ directCommands)
    (hadmitted : s.Admitted submission.session.sub) (now tie : Nat) (uuid : String) :
    Guarded C (s.submit C now tie uuid submission) := by
  unfold Server.submit
  dsimp only
  split
  · exact h.throws _ (session_admitted hadmitted)
  · split
    · exact h.refuses (session_admitted hadmitted)
    · next haccount =>
      have haccount := not_not.mp haccount
      cases hcommand : resolveCommand submission.allowed submission.body.command with
      | error e => exact h.throws _ (session_admitted hadmitted)
      | ok command =>
          refine h.wakes (t := ⟨now, tie, .enqueueDirect uuid submission.body.account command
            submission.body.ciphertext⟩) rfl ?_ (session_admitted hadmitted) ?_
          · rintro job rfl p hp
            cases hp
            obtain ⟨route, hroute⟩ := hallowed
            refine ⟨List.mem_flatMap.mpr ⟨_, hroute, resolveCommand_mem hcommand⟩, ?_⟩
            show s.Admitted (toLower submission.body.account)
            rw [haccount]
            exact hadmitted
          · intro job store hx shown hshown
            rw [List.mem_singleton.mp hshown]
            rcases createJob_ok hx with ⟨_, row, _, _, hkey, hsome⟩ | ⟨rfl, _⟩
            · rw [← hkey] at hsome
              cases hsome
            · exact congrArg toLower haccount

theorem Guarded.ready (h : Guarded C s) {submission : Submission}
    (hallowed : ∃ route, (route, submission.allowed) ∈ directCommands)
    (hadmitted : s.Admitted submission.session.sub) (now tie : Nat) (uuid : String)
    (answer : Except String Readiness) : Guarded C (s.ready C now tie uuid submission answer) := by
  unfold Server.ready
  cases answer with
  | error message => exact h.throws _ (session_admitted hadmitted)
  | ok readiness =>
      dsimp only
      split
      · exact h.throws _ (session_admitted hadmitted)
      · exact h.submit hallowed hadmitted now tie uuid

/-- The orchestrator's own turns ask for no direct job. -/
theorem Guarded.own_turn (h : Guarded C s) {t : Turn} {o : Orchestrator}
    (hentry : ∀ uuid account command ciphertext,
      t.entry ≠ .enqueueDirect uuid account command ciphertext)
    (hstep : s.orchestrator.step t = .ok o) : Guarded C { s with orchestrator := o } := by
  refine h.turn hstep fun job hjob p hp => ?_
  unfold Turn.Inserts at hjob
  split at hjob
  · next heq => exact absurd heq (hentry _ _ _ _)
  · rw [hjob] at hp; cases hp
  · exact hjob.elim

/-- A signature has been checked: the token is the session's, or there is none. -/
theorem Guarded.verified (h : Guarded C s) {i : Nat} {v : Verifying}
    (hv : s.sessions.verifying[i]? = some v) {s' : Server}
    (hs : s.verified (s.sessions.sessionCreated C.auth i v) = s') : Guarded C s' := by
  have htracked := h.tracked.sessionCreated hv
  rcases sessionCreated_cases C.auth s.sessions i v with ⟨_, hcreated⟩ | ⟨e, hcreated⟩
  · rw [hcreated] at hs htracked
    subst hs
    refine ⟨h.sound, h.forward, htracked, ?_, ?_, h.submissions, h.streams, ?_, h.jobs⟩
    · exact List.filterMap_append.trans ((List.append_nil _).trans h.challenges)
    · exact (List.filterMap_append.trans (congrArg (· ++ [_]) h.tokens)).trans List.map_append.symm
    · intro e he
      rcases List.mem_append.mp he with he | he
      · exact ⟨(h.sent e he).admitted, (h.sent e he).isolated⟩
      · rw [List.mem_singleton.mp he]
        exact ⟨anyone_admitted s, fun _ hshown => by cases hshown⟩
  · rw [hcreated] at hs htracked
    subst hs
    have hrefused : Guarded C { s with sessions :=
        { s.sessions with verifying := s.sessions.verifying.eraseIdx i } } :=
      ⟨h.sound, h.forward, htracked, h.challenges, h.tokens, h.submissions, h.streams,
        fun e he => ⟨(h.sent e he).admitted, (h.sent e he).isolated⟩, h.jobs⟩
    exact hrefused.throws _ (anyone_admitted s)

/-- **Every move leaves the server guarded.** -/
theorem Guarded.step (h : Guarded C s) {m : ServerMove} {s' : Server}
    (hstep : s.step C m = .ok s') : Guarded C s' := by
  unfold Server.step at hstep
  cases m with
  | request now random r tie => cases hstep; exact h.handle now random tie r
  | verified i =>
      dsimp only at hstep
      cases hv : s.sessions.verifying[i]? with
      | none => rw [hv] at hstep; cases hstep
      | some v =>
          simp only [hv] at hstep
          exact h.verified hv (Except.ok.inj hstep)
  | ready i now uuid answer tie =>
      dsimp only at hstep
      cases hx : s.submissions[i]? with
      | none => rw [hx] at hstep; cases hstep
      | some submission =>
          rw [hx] at hstep
          cases hstep
          obtain ⟨hallowed, hadmitted⟩ := h.submissions submission (List.mem_of_getElem? hx)
          have herased : Guarded C { s with submissions := s.submissions.eraseIdx i } :=
            ⟨h.sound, h.forward, h.tracked, h.challenges, h.tokens,
              fun x hx => h.submissions x (List.mem_of_mem_eraseIdx hx), h.streams,
              fun e he => ⟨(h.sent e he).admitted, (h.sent e he).isolated⟩, h.jobs⟩
          exact herased.ready hallowed hadmitted now tie uuid answer
  | turn t =>
      dsimp only at hstep
      cases hentry : t.entry with
      | enqueueDirect uuid account command ciphertext => simp only [hentry] at hstep; cases hstep
      | retry id => simp only [hentry] at hstep; cases hstep
      | _ =>
          simp only [hentry] at hstep
          cases ho : s.orchestrator.step t with
          | error cause => simp only [ho] at hstep; cases hstep
          | ok o =>
              simp only [ho] at hstep
              cases hstep
              exact h.own_turn (by rw [hentry]; simp) ho
  | emitted job =>
      cases hstep
      refine h.sends ?_ ?_
      · intro e he
        obtain ⟨account, _, rfl⟩ := List.mem_map.mp he
        exact ⟨rfl, rfl⟩
      · intro e he
        obtain ⟨account, hstream, rfl⟩ := List.mem_map.mp he
        obtain ⟨hopen, hsame⟩ := List.mem_filter.mp hstream
        refine ⟨session_admitted (h.streams account hopen), fun shown hshown => ?_⟩
        rw [List.mem_singleton.mp hshown]
        exact congrArg toLower (of_decide_eq_true hsame)
  | closed i =>
      cases hstep
      exact ⟨h.sound, h.forward, h.tracked, h.challenges, h.tokens, h.submissions,
        fun account ha => h.streams account (List.mem_of_mem_eraseIdx ha),
        fun e he => ⟨(h.sent e he).admitted, (h.sent e he).isolated⟩, h.jobs⟩
  | restart =>
      cases hstep
      exact ⟨sound_started _, forward_idle h.forward.store rfl, h.tracked.restart, h.challenges,
        h.tokens, List.forall_mem_nil _, List.forall_mem_nil _,
        fun e he => ⟨(h.sent e he).admitted, (h.sent e he).isolated⟩, h.jobs⟩

theorem Guarded.after (moves : List ServerMove) : Guarded C (serverAfter C moves) := by
  refine Machine.invariant (fun _ _ _ h hstep => h.step hstep) ?_ moves
  refine ⟨sound_started {}, forward_idle ⟨List.nodup_nil, by simp⟩ rfl, ?_, rfl, rfl, ?_, ?_, ?_,
    ?_⟩
  · exact ⟨by simp, by simp, by simp, List.nodup_nil, by simp, by simp⟩
  · exact List.forall_mem_nil _
  · exact List.forall_mem_nil _
  · exact List.forall_mem_nil _
  · exact List.forall_mem_nil _

end Server

/-! ### What a session is worth -/

/-- **A challenge gives one session at most, to the wallet that signed it.**  In every run of the
server, the tokens that were sent are those of the sessions created, one each; each session redeemed
one of the challenges that were sent, no two the same, which was issued to its wallet with its nonce
and no more than five minutes before; and the wallet signed the message. -/
theorem challenge_redeemed_once (C : ServerConfig) (moves : List ServerMove) :
    (serverAfter C moves).sent.filterMap tokenSent =
        (serverAfter C moves).sessions.created.map (fun v => C.auth.sign v.payload) ∧
      ((serverAfter C moves).sessions.created.map Verifying.number).Nodup ∧
      ∀ v ∈ (serverAfter C moves).sessions.created,
        C.auth.verifyTypedData v.message v.signature = .ok true ∧
          ∃ m, ((serverAfter C moves).sent.filterMap challengeSent)[v.number]? = some m ∧
            toLower m.wallet = toLower v.message.wallet ∧ m.nonce = v.message.nonce ∧
            v.now ≤ m.issuedAt + 300 := by
  have h := Guarded.after (C := C) moves
  refine ⟨h.tokens, ?_, fun v hv => ⟨h.tracked.signed v hv, ?_⟩⟩
  · exact h.tracked.once.sublist ((List.sublist_append_right _ _).map _)
  · obtain ⟨m, hm⟩ := h.tracked.redeemed v (List.mem_append_right _ hv)
    rw [h.challenges]
    refine ⟨m, hm.issued, hm.wallet, hm.nonce, ?_⟩
    rw [← h.tracked.window m (List.mem_of_getElem? hm.issued)]
    exact hm.inTime

/-- **A session is shown its own account's jobs alone.**  In every run of the server, every job in a
response or an event that goes to a session is of the session's account; nobody is shown a job
without a session, but for the operator, who is shown no response of the extension. -/
theorem responses_isolated (C : ServerConfig) (moves : List ServerMove) :
    (∀ account response, (Recipient.session account, response) ∈ (serverAfter C moves).sent →
        ∀ job ∈ response.body.shown, toLower job.account = toLower account) ∧
      (∀ response, (Recipient.anyone, response) ∈ (serverAfter C moves).sent →
        response.body.shown = []) ∧
      ∀ response, (Recipient.operations, response) ∈ (serverAfter C moves).sent →
        ∀ job ∈ response.body.shown, job.response = none := by
  have h : ∀ e ∈ (serverAfter C moves).sent, Isolated e :=
    fun e he => ((Guarded.after moves).sent e he).isolated
  refine ⟨fun account response he => h _ he, ?_, fun response he => h _ he⟩
  intro response he
  exact List.eq_nil_iff_forall_not_mem.mpr (h _ he)

end QuietLine.Relayer
