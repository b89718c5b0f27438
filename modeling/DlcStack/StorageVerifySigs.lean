import DlcStack.EffectInterleaving
import DlcStack.StorageRequest
import Mathlib.Data.List.Infix

/-!
# The signature middleware of the storage API

One request on its way through `VerifySignatureMiddleware::call`, the inner
`wrap_fn` that removes the header's nonce, and the handlers.  What touches the
state shared by all requests is an `Effect`; the reading of the body or query
and the outcome of the verification are effects too, so that requests can be
interleaved between them.
-/

namespace DlcStack

namespace Storage

open Program

/-- `NONCE_VEC_LENGTH` -/
def nonceVecLength : Nat := 100

/-- What all requests share: the nonces on offer, how many were drawn so far,
and the database. -/
structure Server where
  nonces : List String
  drawn : Nat
  db : Database

/-- The server after its start. -/
def Server.initial (db : Database) : Server :=
  ⟨[], 0, db⟩

inductive Effect where
  | copyNonces
  | extract
  | verification (accepted : Bool)
  | removeNonce (header : HeaderValue)
  | handle (call : Call)
  deriving DecidableEq

abbrev Effect.Answer : Effect → Type
  | copyNonces => List String
  | extract => Unit
  | verification _ => Unit
  | removeNonce _ => Unit
  | handle _ => Response

/-- `while nonces.len() >= NONCE_VEC_LENGTH { nonces.remove(0) }` -/
def removeOldest : List String → List String
  | [] => []
  | nonce :: rest =>
      if (nonce :: rest).length ≥ nonceVecLength then removeOldest rest
      else nonce :: rest

/-- `request_nonce`, with the random strings in the order they are drawn. -/
def Server.requestNonce (draw : Nat → String) (server : Server) :
    Response × Server :=
  (⟨.ok, .text (draw server.drawn)⟩,
    { server with
      nonces := removeOldest server.nonces ++ [draw server.drawn]
      drawn := server.drawn + 1 })

/-- `nonces.retain(|n| n != header_nonce)` -/
def Server.removeNonce (server : Server) (header : HeaderValue) : Server :=
  { server with
    nonces := server.nonces.filter fun nonce => !header.equals nonce }

/-- The run of a handler. -/
def Server.handle (draw : Nat → String) (server : Server) (call : Call) :
    Response × Server :=
  match call with
  | .requestNonce => server.requestNonce draw
  | call =>
      ((call.respond server.db).1, { server with db := (call.respond server.db).2 })

/-- How the server answers each effect. -/
def Server.answer (draw : Nat → String) : Responder Server Effect Effect.Answer
  | server, .copyNonces => (server.nonces, server)
  | server, .extract => ((), server)
  | server, .verification _ => ((), server)
  | server, .removeNonce header => ((), server.removeNonce header)
  | server, .handle call => server.handle draw call

/-! ## Verification -/

structure AuthenticatedMessage where
  message : Json
  publicKey : String
  signature : String

def Json.readAuthenticatedMessage (json : Json) : Option AuthenticatedMessage :=
  match json.structFields ["message", "public_key", "signature"] with
  | some [some message, publicKey, signature] => do
      return ⟨message.toValue, ← stringField publicKey, ← stringField signature⟩
  | _ => none

/-- Whether a signature on a text verifies under a key, both written out. -/
def verifies (lib : Libraries) (signature key text : String) : Bool :=
  match lib.signatureFromStr signature, lib.publicKeyFromStr key with
  | some signature, some key => lib.verifyEcdsa (lib.sha256 text) signature key
  | _, _ => false

def verifyQueryParams (lib : Libraries) (signature key message : String) : Bool :=
  verifies lib signature key message

def verifyBody (lib : Libraries) (body : AuthenticatedMessage) : Bool :=
  verifies lib body.signature body.publicKey (lib.print body.message)

/-! ## The middleware -/

def unprotectedPaths : List String :=
  ["/health", "/request_nonce"]

/-- `path.contains(part)` -/
def containsStr (path part : String) : Bool :=
  part.toList <:+: path.toList

/-- The request after its body was taken out. -/
def Request.emptied (request : Request) : Request :=
  { request with payload := .empty }

/-- `req.set_payload(bytes_to_payload(message.to_string().into()))` -/
def Request.carrying (request : Request) (lib : Libraries) (message : Json) :
    Request :=
  { request with payload := ⟨(lib.print message).utf8ByteSize, some message⟩ }

/-- The message of the body, where the body is an `AuthenticatedMessage`. -/
def Request.authenticatedMessage (request : Request) :
    Option AuthenticatedMessage :=
  request.payload.json.bind Json.readAuthenticatedMessage

/-- `svc.call(req)`: the inner `wrap_fn`, then the routes. -/
def service (lib : Libraries) (request : Request) :
    Program Effect Effect.Answer Response := do
  match request.authorization with
  | some header => perform (Effect.removeNonce header)
  | none => pure ()
  match dispatch lib request with
  | .ok call => perform (Effect.handle call)
  | .error response => pure response

def Response.forbid (response : Response) : Response :=
  { response with status := .forbidden }

/-- `let mut res = svc.call(req).await?;`
`*res.response_mut().status_mut() = StatusCode::FORBIDDEN;` -/
def rejected (lib : Libraries) (request : Request) :
    Program Effect Effect.Answer (Option Response) := do
  let response ← service lib request
  return some response.forbid

/-- The signature and key among the parameters of a GET request, where the path
asks for them.  The outer option is the branch taken, the inner one the
extraction. -/
def Request.queryToCheck (request : Request) :
    Option (Option (String × String)) :=
  if request.method = .get ∧ containsStr request.path "/event" then
    some (request.query.readAuthenticatedEventQueryParams.map fun params =>
      (params.signature, params.key))
  else if request.method = .get ∧ containsStr request.path "/contract" then
    some (request.query.readAuthenticatedContractQueryParams.map fun params =>
      (params.signature, params.key))
  else none

/-- The branches of the GET requests: the service first, then the check. -/
def checkQuery (lib : Libraries) (nonces : List String) (nonce : String)
    (request : Request) (params : Option (String × String)) :
    Program Effect Effect.Answer (Option Response) := do
  perform Effect.extract
  match params with
  | none => return none
  | some (signature, key) =>
      let response ← service lib request
      let accepted :=
        verifyQueryParams lib signature key nonce && nonces.contains nonce
      perform (Effect.verification accepted)
      return some (if accepted then response else response.forbid)

/-- The branch of all other requests: the check first, then the service. -/
def checkBody (lib : Libraries) (nonces : List String) (nonce : String)
    (request : Request) : Program Effect Effect.Answer (Option Response) := do
  perform Effect.extract
  if request.payload.length > bytesLimit then
    return none
  else
    match request.authenticatedMessage with
    | none => rejected lib request.emptied
    | some body =>
        match (body.message.index "nonce").asStr with
        | none => rejected lib request.emptied
        | some messageNonce =>
            let accepted :=
              verifyBody lib body && nonces.contains nonce && nonce = messageNonce
            perform (Effect.verification accepted)
            if accepted then
              let response ← service lib (request.carrying lib body.message)
              return some response
            else
              rejected lib request.emptied

/-- `VerifySignatureMiddleware::call`; there is no response after a panic. -/
def call (lib : Libraries) (request : Request) :
    Program Effect Effect.Answer (Option Response) :=
  if request.path ∈ unprotectedPaths then do
    let response ← service lib request
    return some response
  else do
    let nonces ← perform Effect.copyNonces
    match request.authorization with
    | none =>
        let response ← service lib request
        return some response
    | some header =>
        match header.toStr with
        | none => rejected lib request
        | some nonce =>
            match request.queryToCheck with
            | some params => checkQuery lib nonces nonce request params
            | none => checkBody lib nonces nonce request

/-! ## What the inner service does -/

@[simp]
theorem Server.removeNonce_db (server : Server) (header : HeaderValue) :
    (server.removeNonce header).db = server.db :=
  rfl

/-- The server after the inner `wrap_fn`. -/
def Server.unwrapped (server : Server) (request : Request) : Server :=
  match request.authorization with
  | some header => server.removeNonce header
  | none => server

@[simp]
theorem Server.unwrapped_db (server : Server) (request : Request) :
    (server.unwrapped request).db = server.db := by
  unfold unwrapped
  cases request.authorization <;> rfl

/-- The answer and the final state of the inner service. -/
def Server.serve (lib : Libraries) (draw : Nat → String) (server : Server)
    (request : Request) : Response × Server :=
  match dispatch lib request with
  | .ok call => (server.unwrapped request).handle draw call
  | .error response => (response, server.unwrapped request)

theorem eval_service (lib : Libraries) (draw : Nat → String) (server : Server)
    (request : Request) :
    (eval (Server.answer draw) (service lib request) server).2 =
      server.serve lib draw request := by
  unfold service Server.serve Server.unwrapped
  cases request.authorization <;> cases dispatch lib request <;> rfl

theorem eval_rejected (lib : Libraries) (draw : Nat → String) (server : Server)
    (request : Request) :
    (eval (Server.answer draw) (rejected lib request) server).2 =
      (some (server.serve lib draw request).1.forbid,
        (server.serve lib draw request).2) := by
  unfold rejected
  rw [eval_bind_snd, eval_service]
  rfl

/-- A handler leaves the database as its call does. -/
theorem Server.handle_db (draw : Nat → String) (server : Server) (call : Call) :
    (server.handle draw call).2.db = (call.respond server.db).2 := by
  cases call <;> rfl

/-- The status of a call that has no error is one that a handler gives. -/
theorem Server.handle_status (draw : Nat → String) (server : Server)
    (call : Call) : (server.handle draw call).1.status ≠ .forbidden := by
  have effected (absent : String) (num : Nat) :
      (Handlers.effected absent num).status ≠ .forbidden := by
    cases num <;> simp [Handlers.effected]
  cases call with
  | createContract contract =>
      simp only [Server.handle, Call.respond, Handlers.createContract]
      split <;> simp
  | createEvent event =>
      simp only [Server.handle, Call.respond, Handlers.createEvent]
      split <;> simp
  | updateContract contract => exact effected _ _
  | deleteContract contract => exact effected _ _
  | updateEvent event => exact effected _ _
  | deleteEvent event => exact effected _ _
  | _ => exact StatusCode.noConfusion

/-! ## A symbolic instance -/

mutual

/-- Compact JSON, for texts without characters that need escaping. -/
def Json.text : Json → String
  | null => "null"
  | bool value => if value then "true" else "false"
  | number text => text
  | string text => "\"" ++ text ++ "\""
  | array items => "[" ++ ",".intercalate (Json.texts items) ++ "]"
  | object members => "\x7b" ++ ",".intercalate (Json.memberTexts members) ++ "\x7d"

def Json.texts : List Json → List String
  | [] => []
  | item :: items => item.text :: Json.texts items

def Json.memberTexts : List (String × Json) → List String
  | [] => []
  | (name, value) :: members =>
      ("\"" ++ name ++ "\":" ++ value.text) :: Json.memberTexts members

end

/-- Signatures as terms: a text is its own digest, a key its own encoding, and
the signature of a text under a key is the two side by side. -/
def Libraries.symbolic : Libraries where
  requote := id
  requote_plain := fun _ _ => rfl
  pathSegment := id
  print := Json.text
  Digest := String
  Signature := String
  PublicKey := String
  sha256 := id
  signatureFromStr := some
  publicKeyFromStr := some
  verifyEcdsa := fun digest signature key => signature = key ++ ":" ++ digest

end Storage

end DlcStack
