/-
Who is behind a direct job.

A token is the relayer's own, so who presents one has signed a challenge at most half an
hour before.  That takes the digest to be one that nobody else can make: it is a
condition on the run, that a token with the digest of its body carries a body the
relayer has signed.  Then a direct job is its wallet's, for every order in which
requests, signature checks, turns of the orchestrator and restarts come.
-/
import QuietLine.Proofs.Sessions

namespace QuietLine.Relayer

open Outcome

/-! ### Who is let through -/

/-- The token that a request presents. -/
def Request.token : Request → Option String
  | .direct _ authorization _ => bearer authorization
  | .job authorization _ => bearer authorization
  | .jobs authorization => bearer authorization
  | .retry authorization _ => bearer authorization
  | .events session => some session
  | _ => none

/-- Nobody presents the digest of a body that the relayer has not signed. -/
def Unforged (C : ServerConfig) (s : Server) : ServerMove → Prop
  | .request _ _ r _ => ∀ token body signature, r.token = some token →
      AuthLibrary.parts token = some (body, signature) → C.auth.checks body signature = true →
      ∃ v ∈ s.sessions.created, body = C.auth.encodeBody v.payload
  | _ => True

/-- What the relayer has signed is what is parsed of it. -/
def Legible (C : ServerConfig) (s : Server) : Prop :=
  ∀ v ∈ s.sessions.created, C.auth.decodeBody (C.auth.encodeBody v.payload) = .ok v.payload

/-- The session of each token that was let through, within half an hour of its signature. -/
def Signed (s : Server) : Prop :=
  ∀ x ∈ s.admitted, ∃ v ∈ s.sessions.created, v.payload = x.1 ∧ x.2 ≤ v.now + 1800

/-- Neither is anyone let through nor a session created. -/
def Unlogged (s s' : Server) : Prop :=
  s'.admitted = s.admitted ∧ s'.sessions.created = s.sessions.created

section Signed

variable {C : ServerConfig} {s s' : Server}

theorem verify_ok {A : AuthLibrary} {now : Nat} {token : String} {p : SessionPayload}
    (h : A.verify now token = .ok p) : ∃ body signature,
      AuthLibrary.parts token = some (body, signature) ∧ A.checks body signature = true ∧
        A.decodeBody body = .ok p ∧ now ≤ p.exp := by
  unfold AuthLibrary.verify at h
  obtain ⟨⟨body, signature⟩, hparts, h⟩ := bind_eq_ok.mp h
  obtain ⟨_, _, h⟩ := bind_eq_ok.mp h
  obtain ⟨_, hchecks, h⟩ := bind_eq_ok.mp h
  obtain ⟨payload, hparse, h⟩ := bind_eq_ok.mp h
  obtain ⟨_, hexp, h⟩ := bind_eq_ok.mp h
  cases h
  refine ⟨body, signature, orElse_eq_ok.mp hparts, ?_, ?_, ?_⟩
  · simpa using rejectIf_eq_ok.mp hchecks
  · unfold AuthLibrary.parseBody at hparse
    cases hdecode : A.decodeBody body with
    | ok payload => rw [hdecode] at hparse; cases hparse; rfl
    | error text => rw [hdecode] at hparse; cases hparse
  · simpa using rejectIf_eq_ok.mp hexp

theorem send_unlogged (s : Server) (recipient : Recipient) (response : Response) :
    Unlogged s (s.send recipient response) :=
  ⟨rfl, rfl⟩

theorem wakes_unlogged (s : Server) (now tie : Nat) (recipient : Recipient) (status : Nat)
    (includeResponse : Bool) (x : Except StoreError (Job × Store)) :
    Unlogged s (s.wakes now tie recipient status includeResponse x) := by
  cases x with
  | ok result => exact ⟨rfl, rfl⟩
  | error e => exact ⟨rfl, rfl⟩

theorem submit_unlogged (s : Server) (now tie : Nat) (uuid : String) (submission : Submission) :
    Unlogged s (s.submit C now tie uuid submission) := by
  unfold Server.submit
  dsimp only
  split
  · exact ⟨rfl, rfl⟩
  · split
    · exact ⟨rfl, rfl⟩
    · split
      · exact ⟨rfl, rfl⟩
      · exact wakes_unlogged s _ _ _ _ _ _

theorem ready_unlogged (s : Server) (now tie : Nat) (uuid : String) (submission : Submission)
    (answer : Except String Readiness) :
    Unlogged s (s.ready C now tie uuid submission answer) := by
  unfold Server.ready
  split
  · exact ⟨rfl, rfl⟩
  · split
    · exact ⟨rfl, rfl⟩
    · exact submit_unlogged s now tie uuid submission

/-- A session creates nothing, and is let through by a token that was verified. -/
structure LetThrough (C : ServerConfig) (s s' : Server) (now : Nat) (token : Option String) :
    Prop where
  created : s'.sessions.created = s.sessions.created
  admitted : s'.admitted = s.admitted ∨ ∃ t p, token = some t ∧
    C.auth.verify (seconds now) t = .ok p ∧ s'.admitted = s.admitted ++ [(p, seconds now)]

theorem Unlogged.letThrough (h : Unlogged s s') (now : Nat) (token : Option String) :
    LetThrough C s s' now token :=
  ⟨h.2, Or.inl h.1⟩

theorem withSession_letThrough (s : Server) (now : Nat) {authorization : Option String}
    {handler : SessionPayload → Server → Server}
    (hhandler : ∀ session s', Unlogged s' (handler session s')) :
    LetThrough C s (s.withSession C now authorization handler) now (bearer authorization) := by
  unfold Server.withSession
  cases hauth : C.authenticated now authorization with
  | error response => exact (send_unlogged s _ response).letThrough now _
  | ok session =>
      obtain ⟨hadmitted, hcreated⟩ := hhandler session (s.admitSession now session)
      refine ⟨hcreated, Or.inr ?_⟩
      unfold ServerConfig.authenticated at hauth
      cases htoken : bearer authorization with
      | none => rw [htoken] at hauth; cases hauth
      | some token =>
          simp only [htoken] at hauth
          cases hverify : C.auth.verify (seconds now) token with
          | error e => rw [hverify] at hauth; cases hauth
          | ok payload =>
              rw [hverify] at hauth
              cases hauth
              exact ⟨token, session, rfl, hverify, hadmitted⟩

theorem handle_letThrough (s : Server) (now : Nat) (random : String) (tie : Nat) (r : Request) :
    LetThrough C s (s.handle C now random tie r) now r.token := by
  unfold Server.handle
  cases r with
  | challenge address =>
      dsimp only
      split
      · exact ⟨rfl, Or.inl rfl⟩
      · exact ⟨rfl, Or.inl rfl⟩
  | verify message signature =>
      dsimp only
      split
      · cases hcreate : s.sessions.createSession (seconds now) message signature with
        | error e => exact ⟨rfl, Or.inl rfl⟩
        | ok sessions => exact ⟨createSession_created hcreate, Or.inl rfl⟩
      · exact ⟨rfl, Or.inl rfl⟩
  | direct route authorization body =>
      dsimp only
      split
      · exact ⟨rfl, Or.inl rfl⟩
      · exact withSession_letThrough s now fun _ _ => ⟨rfl, rfl⟩
  | job authorization jobID =>
      refine withSession_letThrough s now fun session s' => ?_
      cases s'.ownJob session jobID with
      | error response => exact ⟨rfl, rfl⟩
      | ok job => exact ⟨rfl, rfl⟩
  | jobs authorization => exact withSession_letThrough s now fun _ _ => ⟨rfl, rfl⟩
  | retry authorization jobID =>
      refine withSession_letThrough s now fun session s' => ?_
      cases s'.ownJob session jobID with
      | error response => exact ⟨rfl, rfl⟩
      | ok job => exact wakes_unlogged s' _ _ _ _ _ _
  | events token =>
      dsimp only
      split
      · exact ⟨rfl, Or.inl rfl⟩
      · cases hverify : C.auth.verify (seconds now) token with
        | error e => exact ⟨rfl, Or.inl rfl⟩
        | ok session => exact ⟨rfl, Or.inr ⟨token, session, rfl, hverify, rfl⟩⟩
  | operationsJob key externalKey =>
      dsimp only
      split
      · exact ⟨rfl, Or.inl rfl⟩
      · split
        · exact ⟨rfl, Or.inl rfl⟩
        · split
          · exact ⟨rfl, Or.inl rfl⟩
          · exact ⟨rfl, Or.inl rfl⟩

/-- A move that lets nobody in, and forgets no session. -/
theorem Signed.grows (h : Legible C s → Signed s) (hadmitted : s'.admitted = s.admitted)
    (hcreated : s.sessions.created ⊆ s'.sessions.created) (hlegible : Legible C s') : Signed s' := by
  intro x hx
  rw [hadmitted] at hx
  obtain ⟨v, hv, hsigned⟩ := h (fun v hv => hlegible v (hcreated hv)) x hx
  exact ⟨v, hcreated hv, hsigned⟩

theorem Signed.unlogged (h : Legible C s → Signed s) (hsame : Unlogged s s')
    (hlegible : Legible C s') : Signed s' :=
  Signed.grows h hsame.1 (by rw [hsame.2]; exact List.Subset.refl _) hlegible

/-- **Who is let through has a session**, as long as tokens are not forged. -/
theorem Signed.step (h : Legible C s → Signed s) {m : ServerMove} (hunforged : Unforged C s m)
    (hstep : s.step C m = .ok s') (hlegible : Legible C s') : Signed s' := by
  unfold Server.step at hstep
  cases m with
  | request now random r tie =>
      cases hstep
      obtain ⟨hcreated, hsame | ⟨token, p, htoken, hverify, hadmitted⟩⟩ :=
        handle_letThrough (C := C) s now random tie r
      · exact Signed.unlogged h ⟨hsame, hcreated⟩ hlegible
      · unfold Legible at hlegible
        rw [hcreated] at hlegible
        intro x hx
        rw [hadmitted] at hx
        rw [hcreated]
        rcases List.mem_append.mp hx with hx | hx
        · exact h hlegible x hx
        · obtain ⟨body, signature, hparts, hchecks, hdecode, hexp⟩ := verify_ok hverify
          obtain ⟨v, hv, rfl⟩ := hunforged token body signature htoken hparts hchecks
          rw [hlegible v hv] at hdecode
          cases hdecode
          rw [List.mem_singleton.mp hx]
          exact ⟨v, hv, rfl, hexp⟩
  | verified i =>
      dsimp only at hstep
      split at hstep
      · cases hstep
      · next v hv =>
        cases hstep
        rcases sessionCreated_cases C.auth s.sessions i v with ⟨_, hcreated⟩ | ⟨e, hcreated⟩
        · rw [hcreated] at hlegible ⊢
          exact Signed.grows h rfl (List.subset_append_left _ _) hlegible
        · rw [hcreated] at hlegible ⊢
          exact Signed.unlogged h ⟨rfl, rfl⟩ hlegible
  | ready i now uuid answer tie =>
      dsimp only at hstep
      split at hstep
      · cases hstep
      · cases hstep
        exact Signed.unlogged h (ready_unlogged _ _ _ _ _ _) hlegible
  | turn t =>
      dsimp only at hstep
      split at hstep
      · cases hstep
      · cases hstep
      · split at hstep
        · cases hstep; exact h hlegible
        · cases hstep
  | emitted job => cases hstep; exact h hlegible
  | closed i => cases hstep; exact h hlegible
  | restart => cases hstep; exact h hlegible

end Signed

/-! ### Direct jobs -/

/-- **A direct job is its wallet's own.**  In every run of the server in which no token is forged,
every direct job in the store carries one of the commands of the direct routes, so none that
confirms or recovers an anchor, and its account is that of a wallet which signed a challenge for a
session; whatever is sent to a session is sent to such a wallet's; and who is let through, to
enqueue, to retry or to see a job, presents the token of a session that was begun no more than half
an hour before. -/
theorem direct_jobs_signed (C : ServerConfig) (moves : List ServerMove)
    (hlegible : Legible C (serverAfter C moves))
    (hunforged : Machine.Meets (Server.step C) (Unforged C) {} moves) :
    (∀ row ∈ (serverAfter C moves).orchestrator.store.jobs, ∀ p, row.payload = .direct p →
        p.command ∈ enqueuedCommands ∧
          ∃ v ∈ (serverAfter C moves).sessions.created, toLower v.message.wallet = row.account ∧
            C.auth.verifyTypedData v.message v.signature = .ok true) ∧
      (∀ account response, (Recipient.session account, response) ∈ (serverAfter C moves).sent →
        ∃ v ∈ (serverAfter C moves).sessions.created, toLower v.message.wallet = account ∧
          C.auth.verifyTypedData v.message v.signature = .ok true) ∧
      ∀ x ∈ (serverAfter C moves).admitted, ∃ v ∈ (serverAfter C moves).sessions.created,
        v.payload = x.1 ∧ x.2 ≤ v.now + 1800 := by
  have h := Guarded.after (C := C) moves
  have hstart : Legible C {} → Signed {} := fun _ => List.forall_mem_nil _
  have hstep : ∀ s m s', (Legible C s → Signed s) → Unforged C s m → s.step C m = .ok s' →
      Legible C s' → Signed s' := fun _ _ _ h hunforged => Signed.step h hunforged
  have hsigned : Signed (serverAfter C moves) :=
    Machine.invariant_of_meets hstep hstart moves hunforged hlegible
  have hsession : ∀ account, (serverAfter C moves).Admitted account →
      ∃ v ∈ (serverAfter C moves).sessions.created, toLower v.message.wallet = account ∧
        C.auth.verifyTypedData v.message v.signature = .ok true := by
    rintro account ⟨x, hx, rfl⟩
    obtain ⟨v, hv, hpayload, _⟩ := hsigned x hx
    exact ⟨v, hv, congrArg SessionPayload.sub hpayload, h.tracked.signed v hv⟩
  refine ⟨fun row hrow p hp => ?_, fun account response he => ?_, hsigned⟩
  · obtain ⟨hcommand, hadmitted⟩ := h.jobs row hrow p hp
    exact ⟨hcommand, hsession _ hadmitted⟩
  · exact hsession _ ((h.sent _ he).admitted account rfl)

/-! ### A sample run -/

/-- Whether the move meets `Unforged`. -/
def unforged (C : ServerConfig) (s : Server) : ServerMove → Bool
  | .request _ _ r _ =>
      (r.token.bind AuthLibrary.parts).all fun p =>
        !C.auth.checks p.1 p.2 ||
          s.sessions.created.any fun v => p.1 = C.auth.encodeBody v.payload
  | _ => true

theorem unforged_of_true {C : ServerConfig} (s : Server) (m : ServerMove)
    (h : unforged C s m = true) : Unforged C s m := by
  cases m with
  | request now random r =>
      intro token body signature htoken hparts hchecks
      simp only [unforged, htoken, Option.bind_some, hparts, Option.all_some, hchecks,
        Bool.not_true, Bool.false_or, List.any_eq_true, decide_eq_true_eq] at h
      exact h
  | _ => trivial

/-- What stands for a wallet's signature of the message. -/
def sampleSignature (message : SessionMessage) : String :=
  let bytes := (Bytes.utf8 (message.wallet ++ message.nonce)).take 65
  String.ofList ('0' :: 'x' :: Bytes.hexEncode bytes)

/-- A token's body is its expiry in minutes and seconds, a stroke each, and the account. -/
def sampleAuth : AuthLibrary where
  isAddress address := address.length = 42
  verifyTypedData message signature := .ok (signature = sampleSignature message)
  encodeBody payload := String.ofList (List.replicate (payload.exp / 60) 'm' ++
    (List.replicate (payload.exp % 60) 's' ++ '-' :: payload.sub.toList))
  decodeBody body :=
    let rest := body.toList.dropWhile fun c => c = 'm'
    .ok {
      sub := String.ofList ((rest.dropWhile fun c => c = 's').drop 1)
      exp := 60 * (body.toList.takeWhile fun c => c = 'm').length +
        (rest.takeWhile fun c => c = 's').length }
  hmac body := (Bytes.utf8 body).reverse.take 32
  toBase64url bytes := String.ofList (Bytes.hexEncode bytes)
  fromBase64url text := Bytes.hexDecode text.toList

theorem sampleAuth_decodeBody (payload : SessionPayload) :
    sampleAuth.decodeBody (sampleAuth.encodeBody payload) = .ok payload := by
  obtain ⟨sub, exp⟩ := payload
  have hexp : 60 * (exp / 60) + exp % 60 = exp := Nat.div_add_mod exp 60
  cases hseconds : exp % 60 with
  | zero => simp [sampleAuth, hseconds]; omega
  | succ n => simp [sampleAuth, hseconds, List.replicate_succ]; omega

def sampleServer : ServerConfig where
  auth := sampleAuth
  operationsKey := "operator"

def sampleWallet : String := "0x00000000000000000000000000000000000000Aa"

/-- The message of a challenge of the first second. -/
def sampleMessage : SessionMessage where
  wallet := sampleWallet
  nonce := String.ofList (List.replicate 48 'c')
  issuedAt := 1
  expiresAt := 301

/-- A wallet signs in and opens an account. -/
def sampleRequests : List ServerMove :=
  let token := sampleAuth.sign { sub := toLower sampleWallet, exp := 1810 }
  [.request 1000 sampleMessage.nonce (.challenge sampleWallet),
    .request 10000 "" (.verify sampleMessage (sampleSignature sampleMessage)),
    .verified 0,
    .request 20000 "" (.direct "open-account" (some ("Bearer " ++ token))
      { account := sampleWallet, ciphertext := [1], command := none }),
    .ready 0 30000 "job" (.ok {
      machineSigner := "0x1"
      activeSigner := "0x1"
      active := [{ teeID := "0x1", status := 2 }] })]

theorem sampleRequests_run :
    Machine.checks (Server.step sampleServer) (unforged sampleServer) {} sampleRequests = true ∧
      (serverAfter sampleServer sampleRequests).orchestrator.store.jobs.map
        (fun row => (row.account, row.type)) = [(toLower sampleWallet, "OPEN_ACCOUNT")] := by
  decide +kernel

theorem direct_jobs_signed_sample :
    (serverAfter sampleServer sampleRequests).orchestrator.store.jobs.map
        (fun row => (row.account, row.type)) = [(toLower sampleWallet, "OPEN_ACCOUNT")] ∧
      ∀ row ∈ (serverAfter sampleServer sampleRequests).orchestrator.store.jobs,
        ∀ p, row.payload = .direct p → p.command ∈ enqueuedCommands ∧
          ∃ v ∈ (serverAfter sampleServer sampleRequests).sessions.created,
            toLower v.message.wallet = row.account ∧
              sampleServer.auth.verifyTypedData v.message v.signature = .ok true :=
  ⟨sampleRequests_run.2, (direct_jobs_signed sampleServer sampleRequests
    (fun v _ => sampleAuth_decodeBody v.payload)
    ((Machine.meets_of_checks sampleRequests_run.1).mono unforged_of_true)).1⟩

end QuietLine.Relayer
