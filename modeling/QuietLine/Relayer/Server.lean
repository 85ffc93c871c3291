/-
The HTTP server (`relayer/src/server.ts`) in front of the sessions and the orchestrator.

A request runs to its first await in the turn it comes in: that of `/auth/verify` is the
check of a signature, that of `/direct` is `assertFccReady`, and the others answer at
once.  Whatever else the relayer does comes in between: turns of the orchestrator, jobs
it emits to the open event streams, a restart (between two turns only).

The routes that read no job and write nothing (`/health`, `/config`, `/market`,
`/attestation`) are left out.  A number of a body is a natural number here: the schemas
refuse the others.
-/
import QuietLine.Relayer.Auth
import QuietLine.Relayer.Orchestrator

namespace QuietLine.Relayer

open Outcome

/-! ### What is answered -/

/-- What `publicJob` shows of a job. -/
structure PublicJob where
  id : String
  externalKey : Option String
  type : String
  status : JobStatus
  account : String
  actionID : Option Hash
  txHash : Option Hash
  error : Option String
  attempts : Nat
  createdAt : Nat
  updatedAt : Nat
  response : Option Reply
  deriving DecidableEq

def publicJob (job : Job) (includeResponse : Bool) : PublicJob where
  id := job.id
  externalKey := job.externalKey
  type := job.type
  status := job.status
  account := job.account
  actionID := job.actionID
  txHash := job.txHash
  error := job.error
  attempts := job.attempts
  createdAt := job.createdAt
  updatedAt := job.updatedAt
  response := if includeResponse then job.response else none

inductive Body where
  | challenge (message : SessionMessage)
  | token (token : String) (expiresIn : Nat)
  | job (job : PublicJob)
  | jobs (jobs : List PublicJob)
  /-- The first event of a stream. -/
  | ready (account : String)
  /-- A `job.updated` event. -/
  | updated (job : PublicJob)
  | error (error : String) (message : Option String)
  deriving DecidableEq

structure Response where
  status : Nat
  body : Body
  deriving DecidableEq

/-- Whom a response goes to: who proved nothing, the account of a session, or the operator. -/
inductive Recipient where
  | anyone
  | session (account : String)
  | operations
  deriving DecidableEq

/-! ### Errors -/

inductive ServerError where
  /-- A body or a query that does not parse. -/
  | zod
  | readiness (message : String)
  | other (message : String)
  deriving DecidableEq

/-- `setErrorHandler`. -/
def ServerError.response : ServerError → Response
  | zod => { status := 400, body := .error "invalid_request" none }
  | readiness message => { status := 503, body := .error "invalid_request" (some message) }
  | other message =>
      if includes message "session" then
        { status := 401, body := .error "invalid_request" (some message) }
      else
        { status := 500
          body := .error "request_failed" (some "Quietline could not complete the request.") }

/-- An error of the sessions, as it reaches the handler. -/
def ofAuth {α : Type} : Except AuthError α → Except ServerError α
  | .ok a => .ok a
  | .error e => .error (.other e.message)

/-! ### Direct commands -/

/-- What a direct route may enqueue. -/
inductive Allowed where
  | one (command : String)
  | several (commands : List String)
  deriving DecidableEq

def directCommands : List (String × Allowed) :=
  [("open-account", .one "OPEN_ACCOUNT"),
    ("account", .one "ACCOUNT_QUERY"),
    ("activity", .one "ACCOUNT_QUERY"),
    ("mandate", .several ["SET_MANDATE", "CANCEL_MANDATE", "WITHDRAW_FROM_MANDATE"]),
    ("quote", .one "QUOTE_REQUEST"),
    ("repayment", .one "APPLY_REPAYMENT"),
    ("stress", .one "STRESS_QUERY"),
    ("export", .one "ACCOUNT_QUERY")]

/-- The commands of every direct route. -/
def Allowed.commands : Allowed → List String
  | one command => [command]
  | several commands => commands

def resolveCommand (allowed : Allowed) (requested : Option String) : Except ServerError String :=
  match allowed with
  | .one command =>
      match truthy requested with
      | none => .ok command
      | some requested =>
          if requested = command then .ok command
          else .error (.other "direct command is not allowed")
  | .several commands =>
      match truthy requested with
      | none => .error (.other ("direct command must be one of: " ++ ", ".intercalate commands))
      | some requested =>
          if requested ∈ commands then .ok requested
          else .error (.other ("direct command must be one of: " ++ ", ".intercalate commands))

/-! ### Readiness -/

structure FccMachine where
  teeID : String
  status : Nat

/-- What `assertFccReady` awaits. -/
structure Readiness where
  machineSigner : String
  activeSigner : String
  active : List FccMachine

/-- A machine in production. -/
def FccMachine.inProduction (machine : FccMachine) : Bool := machine.status = 2

def assertFccReady (r : Readiness) : Except ServerError Unit := do
  rejectIf (toLower r.machineSigner ≠ toLower r.activeSigner) (.readiness
    ("FCC signer mismatch. Confidential mutations are paused until the active machine is " ++
      "registered."))
  let active := r.active.filter FccMachine.inProduction
  rejectIf (active.length ≠ 1 ∨
      active.head?.map (fun machine => toLower machine.teeID) ≠ some (toLower r.activeSigner))
    (.readiness ("FCC registry must contain exactly one production machine for this extension; " ++
      "found " ++ toString active.length ++ "."))

/-! ### Requests -/

/-- The `length` of a string, in UTF-16 units. -/
def utf16Length (text : String) : Nat :=
  (text.toList.map fun c => if c.toNat < 65536 then 1 else 2).sum

/-- A text of `0x` and this many hexadecimal digits. -/
def isHexOf (digits : Nat) (text : String) : Bool :=
  text.toList.take 2 = ['0', 'x'] ∧ (text.toList.drop 2).length = digits ∧
    (text.toList.drop 2).all fun c => (Bytes.hexValue c).isSome

/-- The body of a direct request, its ciphertext decoded. -/
structure DirectBody where
  account : String
  ciphertext : List UInt8
  command : Option String

inductive Request where
  | challenge (address : String)
  | verify (message : SessionMessage) (signature : String)
  | direct (route : String) (authorization : Option String) (body : DirectBody)
  | job (authorization : Option String) (jobID : String)
  | jobs (authorization : Option String)
  | retry (authorization : Option String) (jobID : String)
  | events (session : String)
  | operationsJob (key : Option String) (externalKey : String)

/-- A direct request that awaits `assertFccReady`. -/
structure Submission where
  session : SessionPayload
  allowed : Allowed
  body : DirectBody

/-- What the server is configured with. -/
structure ServerConfig where
  auth : AuthLibrary
  operationsKey : String

structure Server where
  orchestrator : Orchestrator := {}
  sessions : Sessions := {}
  submissions : List Submission := []
  /-- The accounts of the open event streams. -/
  streams : List String := []
  /-- For the proofs alone: what was sent, and whom a token has let through, and when. -/
  sent : List (Recipient × Response) := []
  admitted : List (SessionPayload × Nat) := []

inductive ServerMove where
  /-- A request, with what `Date.now` and `randomBytes` answer, and the job that the store picks if
  the orchestrator is woken. -/
  | request (now : Nat) (random : String) (r : Request) (tie : Nat := 0)
  /-- The signature that a call of `createSession` awaits is checked. -/
  | verified (i : Nat)
  /-- What a direct request awaits is answered. -/
  | ready (i now : Nat) (uuid : String) (answer : Except String Readiness) (tie : Nat := 0)
  /-- A turn of the orchestrator that no request begins. -/
  | turn (t : Turn)
  | emitted (job : Job)
  /-- An event stream is closed. -/
  | closed (i : Nat)
  /-- The relayer stops and is started again. -/
  | restart

inductive NoMove where
  | notAwaited
  | request
  | orchestrator (cause : NoTurn)

/-- `Math.floor(now / 1000)`. -/
def seconds (now : Nat) : Nat := now / 1000

/-- `listJobs`. -/
def Store.listJobs (s : Store) (account : String) (limit : Nat) : List Job :=
  (((s.jobs.filter fun row => row.account = toLower account).mergeSort
    fun a b => b.createdAt ≤ a.createdAt).take limit).map fromRow

/-- The token of an `authorization` header. -/
def bearer (authorization : Option String) : Option String :=
  authorization.bind fun header =>
    if "Bearer ".toList <+: header.toList then some (String.ofList (header.toList.drop 7)) else none

namespace ServerConfig

variable (C : ServerConfig)

/-- `verifySchema`. -/
def verifySchema (message : SessionMessage) (signature : String) : Bool :=
  C.auth.isAddress message.wallet ∧ utf16Length message.nonce = 48 ∧ 0 < message.issuedAt ∧
    0 < message.expiresAt ∧ isHexOf 130 signature

/-- The `preHandler` of the routes of a session. -/
def authenticated (now : Nat) (authorization : Option String) : Except Response SessionPayload :=
  match bearer authorization with
  | none => .error { status := 401, body := .error "session_required" none }
  | some token =>
      match C.auth.verify (seconds now) token with
      | .ok payload => .ok payload
      | .error e => .error { status := 401, body := .error "invalid_session" (some e.message) }

/-- `operationsAuthenticated`. -/
def operationsAuthenticated (key : Option String) : Bool :=
  match truthy key with
  | none => false
  | some supplied => Bytes.utf8 supplied = Bytes.utf8 C.operationsKey

end ServerConfig

namespace Server

variable (C : ServerConfig) (s : Server)

def send (recipient : Recipient) (response : Response) : Server :=
  { s with sent := s.sent ++ [(recipient, response)] }

/-- The token has let the request through. -/
def admitSession (now : Nat) (session : SessionPayload) : Server :=
  { s with admitted := s.admitted ++ [(session, seconds now)] }

/-- An error that a handler throws. -/
def throws (recipient : Recipient) (e : ServerError) : Server := s.send recipient e.response

/-- A job that the session asks for by its id. -/
def ownJob (session : SessionPayload) (jobID : String) : Except Response Job :=
  match s.orchestrator.store.getJob jobID with
  | none => .error { status := 404, body := .error "job_not_found" none }
  | some job =>
      if job.account ≠ session.sub then
        .error { status := 403, body := .error "job_account_mismatch" none }
      else
        .ok job

/-- A handler of a session's route, after its `preHandler`. -/
def withSession (now : Nat) (authorization : Option String)
    (handler : SessionPayload → Server → Server) : Server :=
  match C.authenticated now authorization with
  | .error response => s.send .anyone response
  | .ok session => handler session (s.admitSession now session)

/-- The store's answer to a call that goes on to wake the orchestrator. -/
def wakes (now tie : Nat) (recipient : Recipient) (status : Nat) (includeResponse : Bool) :
    Except StoreError (Job × Store) → Server
  | .error e => s.throws recipient (.other e.message)
  | .ok (job, store) =>
      { s with orchestrator := { s.orchestrator with store }.wake now tie }.send recipient
        { status, body := .job (publicJob job includeResponse) }

/-- A request, in the turn it comes in. -/
def handle (now : Nat) (random : String) (tie : Nat) : Request → Server
  | .challenge address =>
      if C.auth.isAddress address then
        let (message, sessions) := s.sessions.challenge (seconds now) address random
        { s with sessions }.send .anyone { status := 200, body := .challenge message }
      else
        s.throws .anyone .zod
  | .verify message signature =>
      if C.verifySchema message signature then
        match ofAuth (s.sessions.createSession (seconds now) message signature) with
        | .ok sessions => { s with sessions }
        | .error e => s.throws .anyone e
      else
        s.throws .anyone .zod
  | .direct route authorization body =>
      match directCommands.lookup route with
      | none => s.send .anyone { status := 404, body := .error "Not Found" none }
      | some allowed =>
          s.withSession C now authorization fun session s =>
            { s with submissions := s.submissions ++ [{ session, allowed, body }] }
  | .job authorization jobID =>
      s.withSession C now authorization fun session s =>
        match s.ownJob session jobID with
        | .error response => s.send (.session session.sub) response
        | .ok job =>
            s.send (.session session.sub) { status := 200, body := .job (publicJob job true) }
  | .jobs authorization =>
      s.withSession C now authorization fun session s =>
        s.send (.session session.sub)
          { status := 200
            body := .jobs ((s.orchestrator.store.listJobs session.sub 50).map fun job =>
              publicJob job false) }
  | .retry authorization jobID =>
      s.withSession C now authorization fun session s =>
        match s.ownJob session jobID with
        | .error response => s.send (.session session.sub) response
        | .ok _ =>
            s.wakes now tie (.session session.sub) 202 false
              (s.orchestrator.store.resetForRetry jobID now)
  | .events token =>
      if token = "" then
        s.throws .anyone .zod
      else
        match ofAuth (C.auth.verify (seconds now) token) with
        | .error e => s.throws .anyone e
        | .ok session =>
            { s.admitSession now session with streams := s.streams ++ [session.sub] }.send
              (.session session.sub) { status := 200, body := .ready session.sub }
  | .operationsJob key externalKey =>
      if C.operationsAuthenticated key = false then
        s.send .anyone { status := 401, body := .error "operations_auth_required" none }
      else if utf16Length externalKey = 0 ∨ 256 < utf16Length externalKey then
        s.throws .operations .zod
      else
        match s.orchestrator.store.getJobByExternalKey externalKey with
        | none => s.send .operations { status := 404, body := .error "job_not_found" none }
        | some job => s.send .operations { status := 200, body := .job (publicJob job false) }

/-- A direct request, after `assertFccReady`. -/
def submit (now tie : Nat) (uuid : String) (submission : Submission) : Server :=
  let recipient := Recipient.session submission.session.sub
  let body := submission.body
  if C.auth.isAddress body.account = false ∨ body.ciphertext = [] then
    s.throws recipient .zod
  else if toLower body.account ≠ submission.session.sub then
    s.send recipient
      { status := 403
        body := .error "account_mismatch"
          (some "The encrypted request account must match the active session.") }
  else
    match resolveCommand submission.allowed body.command with
    | .error e => s.throws recipient e
    | .ok command =>
        s.wakes now tie recipient 202 true
          (s.orchestrator.store.enqueueDirect uuid now body.account command body.ciphertext)

/-- The rest of `/auth/verify`. -/
def verified : Except AuthError String × Sessions → Server
  | (.ok token, sessions) =>
      { s with sessions }.send .anyone { status := 200, body := .token token 1800 }
  | (.error e, sessions) => { s with sessions }.throws .anyone (.other e.message)

/-- What `assertFccReady` awaits is answered. -/
def ready (now tie : Nat) (uuid : String) (submission : Submission)
    (answer : Except String Readiness) : Server :=
  match answer with
  | .error message => s.throws (.session submission.session.sub) (.other message)
  | .ok readiness =>
      match assertFccReady readiness with
      | .error e => s.throws (.session submission.session.sub) e
      | .ok _ => s.submit C now tie uuid submission

/-- The listeners of the open streams. -/
def emit (job : Job) : Server :=
  let listening := s.streams.filter fun account => job.account = account
  { s with sent := s.sent ++ listening.map fun account =>
      (.session account, { status := 200, body := .updated (publicJob job false) }) }

def step (s : Server) : ServerMove → Except NoMove Server
  | .request now random r tie => .ok (s.handle C now random tie r)
  | .verified i =>
      match s.sessions.verifying[i]? with
      | none => .error .notAwaited
      | some v => .ok (s.verified (s.sessions.sessionCreated C.auth i v))
  | .ready i now uuid answer tie =>
      match s.submissions[i]? with
      | none => .error .notAwaited
      | some submission =>
          let s := { s with submissions := s.submissions.eraseIdx i }
          .ok (s.ready C now tie uuid submission answer)
  | .turn t =>
      match t.entry with
      | .enqueueDirect .. => .error .request
      | .retry _ => .error .request
      | _ =>
          match s.orchestrator.step t with
          | .ok orchestrator => .ok { s with orchestrator }
          | .error cause => .error (.orchestrator cause)
  | .emitted job => .ok (s.emit job)
  | .closed i => .ok { s with streams := s.streams.eraseIdx i }
  | .restart =>
      .ok { s with
        orchestrator := { store := s.orchestrator.store }
        sessions := { s.sessions with verifying := [] }
        submissions := []
        streams := [] }

end Server

/-- The server after a list of moves, refused ones included. -/
def serverAfter (C : ServerConfig) (moves : List ServerMove) : Server :=
  Machine.run (Server.step C) {} moves

end QuietLine.Relayer
