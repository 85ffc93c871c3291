/-
Sessions (`relayer/src/auth.ts`) and the challenges they begin with (`relayer/src/db.ts`).

A wallet asks for a challenge, signs it, and is given a token, which is a text under a
digest that only the relayer can make.  `createSession` awaits the check of the
signature, so it is two halves here and other calls come in between.  Times are in
seconds.
-/
import QuietLine.Relayer.Store

namespace QuietLine.Relayer

open Outcome

/-- The message of `sessionTypes`. -/
structure SessionMessage where
  wallet : String
  nonce : String
  issuedAt : Nat
  expiresAt : Nat
  deriving DecidableEq

/-- What a token says. -/
structure SessionPayload where
  sub : String
  exp : Nat
  deriving DecidableEq

/-- What the sessions take from viem and from Node. -/
structure AuthLibrary where
  isAddress : String → Bool
  /-- `verifyTypedData` of the wallet's message, in the domain of the vault; it throws on what it
  cannot encode or recover. -/
  verifyTypedData : SessionMessage → String → Except String Bool
  /-- `JSON.stringify`, as base64url. -/
  encodeBody : SessionPayload → String
  /-- `JSON.parse` of base64url, which throws on a body that does not parse. -/
  decodeBody : String → Except String SessionPayload
  /-- The digest of `createHmac` under the relayer's secret. -/
  hmac : String → List UInt8
  toBase64url : List UInt8 → String
  fromBase64url : String → List UInt8

inductive AuthError where
  | timestamps
  | challenge
  | signature
  /-- What `verifyTypedData` throws. -/
  | typedData (text : String)
  | token
  | json (text : String)
  | expired
  deriving DecidableEq, Repr

def AuthError.message : AuthError → String
  | timestamps => "challenge timestamps are invalid"
  | challenge => "challenge is invalid or expired"
  | signature => "session signature is invalid"
  | typedData text => text
  | token => "invalid session token"
  | json text => text
  | expired => "session expired"

/-! ### Tokens -/

namespace AuthLibrary

variable (A : AuthLibrary)

/-- `mac`. -/
def mac (body : String) : String := A.toBase64url (A.hmac body)

def sign (payload : SessionPayload) : String :=
  let body := A.encodeBody payload
  body ++ "." ++ A.mac body

/-- The first two parts of `token.split(".")`. -/
def parts (token : String) : Option (String × String) :=
  match token.toList.dropWhile (· ≠ '.') with
  | [] => none
  | _ :: rest =>
      some (String.ofList (token.toList.takeWhile (· ≠ '.')),
        String.ofList (rest.takeWhile (· ≠ '.')))

def parseBody (body : String) : Except AuthError SessionPayload :=
  match A.decodeBody body with
  | .ok payload => .ok payload
  | .error text => .error (.json text)

/-- The token has the digest of its body. -/
def checks (body signature : String) : Bool :=
  A.fromBase64url signature = A.fromBase64url (A.mac body)

def verify (now : Nat) (token : String) : Except AuthError SessionPayload := do
  let (body, signature) ← orElse .token (parts token)
  rejectIf (body = "" ∨ signature = "") .token
  rejectIf (A.checks body signature = false) .token
  let payload ← A.parseBody body
  rejectIf (payload.exp < now) .expired
  return payload

end AuthLibrary

/-! ### Challenges -/

/-- A row of `challenges`. -/
structure Challenge where
  nonce : String
  expiresAt : Nat
  /-- For the proofs alone: which of the issued challenges it is. -/
  number : Nat

/-- A call of `createSession` that awaits the check of the signature. -/
structure Verifying where
  message : SessionMessage
  signature : String
  now : Nat
  /-- For the proofs alone: the challenge that was redeemed. -/
  number : Nat

def Verifying.payload (v : Verifying) : SessionPayload :=
  { sub := toLower v.message.wallet, exp := v.now + 1800 }

structure Sessions where
  /-- The rows of `challenges`, by their address. -/
  challenges : String → Option Challenge := fun _ => none
  verifying : List Verifying := []
  /-- For the proofs alone: every challenge that was issued, and every session created. -/
  issued : List SessionMessage := []
  created : List Verifying := []

namespace Sessions

variable (A : AuthLibrary) (s : Sessions)

/-- `putChallenge`, of the challenge that is issued. -/
def putChallenge (address nonce : String) (expiresAt : Nat) (number : Nat) : Sessions :=
  { s with challenges := fun a =>
      if a = toLower address then some { nonce, expiresAt, number } else s.challenges a }

/-- `consumeChallenge`: the challenge that is redeemed, if there is one. -/
def consumeChallenge (address nonce : String) (now : Nat) : Option (Challenge × Sessions) :=
  match s.challenges (toLower address) with
  | none => none
  | some row =>
      if row.nonce ≠ nonce ∨ row.expiresAt < now then none
      else some (row,
        { s with challenges := fun a => if a = toLower address then none else s.challenges a })

/-- `challenge`, with what `randomBytes` answers. -/
def challenge (now : Nat) (address nonce : String) : SessionMessage × Sessions :=
  let message := { wallet := address, nonce, issuedAt := now, expiresAt := now + 300 }
  let s := s.putChallenge address nonce (now + 300) s.issued.length
  (message, { s with issued := s.issued ++ [message] })

/-- `createSession`, until it awaits the check of the signature. -/
def createSession (now : Nat) (message : SessionMessage) (signature : String) :
    Except AuthError Sessions := do
  rejectIf (message.issuedAt > now + 30 ∨ message.expiresAt ≤ now ∨
    message.expiresAt ≠ message.issuedAt + 300) .timestamps
  let (row, s) ← orElse .challenge (s.consumeChallenge message.wallet message.nonce now)
  return { s with verifying := s.verifying ++ [{ message, signature, now, number := row.number }] }

/-- `createSession`, once the signature has been checked. -/
def sessionCreated (i : Nat) (v : Verifying) : Except AuthError String × Sessions :=
  let s := { s with verifying := s.verifying.eraseIdx i }
  match A.verifyTypedData v.message v.signature with
  | .ok true => (.ok (A.sign v.payload), { s with created := s.created ++ [v] })
  | .ok false => (.error .signature, s)
  | .error text => (.error (.typedData text), s)

end Sessions

end QuietLine.Relayer
