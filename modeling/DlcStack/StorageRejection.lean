import DlcStack.StorageVerifySigs

/-!
# Rejected requests

The middleware answers a request it rejects with 403 only after passing a
request on to the service: the whole request when the header is unreadable or
the query is checked, and the request without its body otherwise.  A rejected
request leaves the rows alone exactly when the call it is passed on as finds
nothing to do.
-/

namespace DlcStack

namespace Storage

open Program

/-- What a request passes as verified in the branch without query. -/
def Request.bodyAccepted (request : Request) (lib : Libraries)
    (nonces : List String) (nonce : String) : Bool :=
  match request.authenticatedMessage with
  | none => false
  | some body =>
      verifyBody lib body && nonces.contains nonce &&
        some nonce = (body.message.index "nonce").asStr

/-- The request that the service receives in place of one the middleware
rejects; nothing for a request that is not rejected. -/
def Request.rejection (request : Request) (lib : Libraries)
    (nonces : List String) : Option Request :=
  if request.path ∈ unprotectedPaths then none
  else
    match request.authorization with
    | none => none
    | some header =>
        match header.toStr with
        | none => some request
        | some nonce =>
            match request.queryToCheck with
            | some none => none
            | some (some (signature, key)) =>
                if verifyQueryParams lib signature key nonce &&
                  nonces.contains nonce then none
                else some request
            | none =>
                if request.payload.length > bytesLimit ∨
                  request.bodyAccepted lib nonces nonce then none
                else some request.emptied

/-- The response to a request, if there is one, and the server after it. -/
def Server.process (lib : Libraries) (draw : Nat → String) (server : Server)
    (request : Request) : Option Response × Server :=
  (eval (Server.answer draw) (call lib request) server).2

/-- The service itself never answers 403. -/
theorem serve_status (lib : Libraries) (draw : Nat → String) (server : Server)
    (request : Request) :
    (server.serve lib draw request).1.status ≠ .forbidden := by
  unfold Server.serve
  cases dispatched : dispatch lib request with
  | ok call => exact Server.handle_status draw (server.unwrapped request) call
  | error response =>
      rcases dispatch_error dispatched with rfl | rfl <;>
        exact StatusCode.noConfusion

/-- The service does nothing exactly when the call it makes, if any, finds
nothing to do. -/
theorem serve_nothingDone_iff (lib : Libraries) (draw : Nat → String)
    (server : Server) (request : Request) :
    NothingDone server.db (server.serve lib draw request).2.db
        (server.serve lib draw request).1 ↔
      ∀ call, dispatch lib request = .ok call → call.Idle server.db := by
  unfold Server.serve
  cases dispatched : dispatch lib request with
  | ok call =>
      simp only [Except.ok.injEq, forall_eq']
      rw [Server.handle_db, Server.unwrapped_db, ← Call.nothingDone_iff]
      cases call <;> simp only [Server.handle, Server.unwrapped_db]
      case requestNonce => exact Iff.rfl
  | error response =>
      simp only [Server.unwrapped_db, reduceCtorEq, false_implies, implies_true,
        iff_true]
      rcases dispatch_error dispatched with rfl | rfl <;>
        exact ⟨rfl, rfl, rfl, rfl⟩

private theorem eval_checkQuery (lib : Libraries) (draw : Nat → String)
    (server : Server) (nonces : List String) (nonce : String)
    (request : Request) (signature key : String) :
    (eval (Server.answer draw)
        (checkQuery lib nonces nonce request (some (signature, key))) server).2 =
      (some (if verifyQueryParams lib signature key nonce &&
            nonces.contains nonce then (server.serve lib draw request).1
          else (server.serve lib draw request).1.forbid),
        (server.serve lib draw request).2) := by
  simp only [checkQuery, perform_bind, eval_ask_snd, Server.answer,
    eval_bind_snd, eval_service, eval_pure]

private theorem eval_checkBody (lib : Libraries) (draw : Nat → String)
    (server : Server) (nonces : List String) (nonce : String)
    (request : Request) (fits : ¬ request.payload.length > bytesLimit) :
    (request.bodyAccepted lib nonces nonce = true ∧ ∃ passed,
      (eval (Server.answer draw) (checkBody lib nonces nonce request) server).2 =
        (some (server.serve lib draw passed).1,
          (server.serve lib draw passed).2)) ∨
      request.bodyAccepted lib nonces nonce = false ∧
        (eval (Server.answer draw) (checkBody lib nonces nonce request) server).2 =
          (some (server.serve lib draw request.emptied).1.forbid,
            (server.serve lib draw request.emptied).2) := by
  simp only [checkBody, perform_bind, eval_ask_snd, Server.answer, if_neg fits,
    Request.bodyAccepted]
  cases request.authenticatedMessage with
  | none => exact .inr ⟨rfl, eval_rejected ..⟩
  | some body =>
      cases named : (body.message.index "nonce").asStr with
      | none => exact .inr ⟨by simp [named], by simp only [named, eval_rejected]⟩
      | some messageNonce =>
          simp only [named, eval_ask_snd, Server.answer, Option.some.injEq]
          by_cases accepted : (verifyBody lib body && nonces.contains nonce &&
              decide (nonce = messageNonce)) = true
          · simp only [accepted, if_true, eval_bind_snd, eval_service, eval_pure]
            exact .inl ⟨trivial, _, rfl⟩
          · rw [Bool.not_eq_true] at accepted
            simp only [accepted, Bool.false_eq_true, if_false, eval_rejected]
            exact .inr ⟨trivial, trivial⟩

/-- The middleware rejects a request and forbids the service's answer, or it
panics before the service, or it passes the service's answer on. -/
theorem process_cases (lib : Libraries) (draw : Nat → String) (server : Server)
    (request : Request) :
    (∃ passed, request.rejection lib server.nonces = some passed ∧
      server.process lib draw request =
        (some (server.serve lib draw passed).1.forbid,
          (server.serve lib draw passed).2)) ∨
      request.rejection lib server.nonces = none ∧
        (server.process lib draw request = (none, server) ∨
          ∃ passed, server.process lib draw request =
            (some (server.serve lib draw passed).1,
              (server.serve lib draw passed).2)) := by
  unfold Request.rejection Server.process call
  by_cases unprotected : request.path ∈ unprotectedPaths
  · simp only [if_pos unprotected, eval_bind_snd, eval_service, eval_pure]
    exact .inr ⟨trivial, .inr ⟨request, rfl⟩⟩
  simp only [if_neg unprotected, perform_bind, eval_ask_snd, Server.answer]
  cases request.authorization with
  | none =>
      simp only [eval_bind_snd, eval_service, eval_pure]
      exact .inr ⟨trivial, .inr ⟨request, rfl⟩⟩
  | some header =>
      cases readable : header.toStr with
      | none =>
          simp only [readable, eval_rejected]
          exact .inl ⟨request, rfl, rfl⟩
      | some nonce =>
          cases query : request.queryToCheck with
          | none =>
              simp only [readable]
              by_cases fits : request.payload.length > bytesLimit
              · exact .inr ⟨by simp [fits], .inl (by
                  simp only [checkBody, perform_bind, eval_ask_snd,
                    Server.answer, if_pos fits, eval_pure])⟩
              · rcases eval_checkBody lib draw server server.nonces nonce request
                  fits with ⟨accepted, passed, evaluated⟩ | ⟨refused, evaluated⟩
                · exact .inr ⟨by simp [accepted], .inr ⟨passed, evaluated⟩⟩
                · exact .inl ⟨request.emptied, by simp [fits, refused], evaluated⟩
          | some params =>
              simp only [readable]
              rcases params with _ | ⟨signature, key⟩
              · exact .inr ⟨rfl, .inl rfl⟩
              · simp only [eval_checkQuery]
                split_ifs with accepted
                · exact .inr ⟨rfl, .inr ⟨request, rfl⟩⟩
                · exact .inl ⟨request, rfl, rfl⟩

/-- A 403 means that nothing was done exactly when the call that the rejected
request is passed on as finds nothing to do. -/
theorem forbidden_nothingDone_iff (lib : Libraries) (draw : Nat → String)
    (server : Server) (request : Request) :
    (∀ response, (server.process lib draw request).1 = some response →
        response.status = .forbidden →
          NothingDone server.db (server.process lib draw request).2.db response) ↔
      ∀ passed, request.rejection lib server.nonces = some passed →
        ∀ call, dispatch lib passed = .ok call → call.Idle server.db := by
  rcases process_cases lib draw server request with
    ⟨passed, rejection, processed⟩ | ⟨accepted, processed⟩
  · have nothing := serve_nothingDone_iff lib draw server passed
    rw [processed, rejection]
    constructor
    · rintro forbidden _ ⟨⟩
      exact nothing.mp
        (forbidden (server.serve lib draw passed).1.forbid rfl rfl)
    · rintro idle _ ⟨⟩ -
      exact nothing.mpr (idle passed rfl)
  · have answered (response : Response)
        (some : (server.process lib draw request).1 = some response) :
        response.status ≠ .forbidden := by
      rcases processed with panicked | ⟨passed, processed⟩
      · rw [panicked] at some
        cases some
      · rw [processed] at some
        obtain rfl := Option.some.inj some
        exact serve_status lib draw server passed
    rw [accepted]
    exact ⟨fun _ _ none => (nomatch none),
      fun _ response some forbidden => absurd forbidden (answered response some)⟩

/-- A database with one contract of one owner. -/
def sampleDatabase : Database :=
  { Database.empty with
    contracts := ⟨[⟨1, "uuid", "confirmed", "content", "alice"⟩], by decide⟩
    nextContractId := 2 }

/-- `DELETE /contracts/alice` with a made-up nonce and no body. -/
def sampleDelete : Request :=
  ⟨.delete, "/contracts/alice", [], some (.visible "nonce"), false, .empty⟩

/-- A request that is answered with 403 deletes every contract of an owner. -/
theorem forbidden_delete_deletes :
    ¬ ∀ (lib : Libraries) (draw : Nat → String) (server : Server)
      (request : Request), request.authorization ≠ none →
      ∀ response, (server.process lib draw request).1 = some response →
        response.status = .forbidden →
          NothingDone server.db (server.process lib draw request).2.db response := by
  intro claimed
  have nothing := claimed .symbolic (fun _ => "") (.initial sampleDatabase)
    sampleDelete (by decide) ⟨.forbidden, .effectedNum 1⟩ rfl rfl
  exact absurd nothing.1 (by decide)

end Storage

end DlcStack
