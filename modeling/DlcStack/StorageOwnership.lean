import DlcStack.EffectSessions
import DlcStack.StorageVerifySigs

/-!
# Whose signature a request carries

A request touches the rows of an owner when its handler inserts, updates or
deletes one of them, or when they are returned with a success status.  The
middleware checks a signature under the `key` of the query or the `public_key`
of the body; the handlers find the owner in the `key` of the query, the `key`
of the message or the path.  Requests in which these agree touch only rows of
the owner who signed them.
-/

namespace DlcStack

namespace Storage

open Program

/-- The request carries a signature that verifies under the public key: one of
the header's nonce in the query, or one of the message in the body. -/
def SignedUnder (lib : Libraries) (request : Request) (key : String) : Prop :=
  (∃ nonce signature, request.authorization = some (.visible nonce) ∧
      ("signature", signature) ∈ request.query ∧
      verifies lib signature key nonce = true) ∨
    ∃ body, request.authenticatedMessage = some body ∧
      verifies lib body.signature key (lib.print body.message) = true

/-- The body verifies under its `public_key`, and the owner is that key. -/
def SignedBody (lib : Libraries) (request : Request) (key : String) : Prop :=
  ∃ body, request.authenticatedMessage = some body ∧
    verifyBody lib body = true ∧
    lib.publicKeyFromStr key = lib.publicKeyFromStr body.publicKey

/-- The request as it reaches the service without having been verified. -/
def Request.unverified (request : Request) : Request :=
  match request.authorization with
  | some (.obscure _) => request
  | _ => request.emptied

/-- The places of a request that name an owner agree with the signature. -/
structure Consistent (lib : Libraries) (request : Request) : Prop where
  /-- The handler of a verified message finds the signer as the owner. -/
  verified : request.queryToCheck = none → ∀ nonce body,
    request.authorization = some (.visible nonce) →
      request.authenticatedMessage = some body →
        verifyBody lib body = true →
          some nonce = (body.message.index "nonce").asStr → ∀ call key,
            dispatch lib (request.carrying lib body.message) = .ok call →
              call.owner = some key →
                lib.publicKeyFromStr key = lib.publicKeyFromStr body.publicKey
  /-- A writing handler that is reached unverified finds an owner who signed
  the body. -/
  unverified : request.method ≠ .get → ∀ call key,
    dispatch lib request.unverified = .ok call → call.owner = some key →
      SignedBody lib request key

/-- A session inserts, updates or deletes a row of the owner, or returns one
with a success status. -/
def Touches
    (session : Session Request Server Effect Effect.Answer (Option Response))
    (key : String) : Prop :=
  (∃ step ∈ session.steps, ∃ call, step.request = .handle call ∧
      key ∈ call.written step.before.db) ∨
    ∃ response, session.result = some response ∧
      response.status.isSuccess = true ∧ key ∈ response.body.owners

theorem SignedBody.signedUnder {lib : Libraries} {request : Request}
    {key : String} (signed : SignedBody lib request key) :
    SignedUnder lib request key := by
  obtain ⟨body, read, verified, same⟩ := signed
  refine .inr ⟨body, read, ?_⟩
  unfold verifyBody verifies at verified
  unfold verifies
  rwa [same]

/-! ## Where the owner comes from -/

theorem Query.field_mem {query : Query} {name value : String}
    (found : query.field name = some value) : (name, value) ∈ query := by
  obtain ⟨⟨other, _⟩, member, rfl⟩ := Option.map_eq_some_iff.mp found
  have same : other = name := by simpa using List.find?_some member
  exact same ▸ List.mem_of_find?_eq_some member

private theorem fields_of_structFields {query : Query} {names : List String}
    {values : List (Option String)}
    (read : query.structFields names = some values) :
    values = names.map query.field := by
  unfold Query.structFields at read
  split_ifs at read
  exact (Option.some.inj read).symm

theorem readContractRequestParams_key {query : Query}
    {params : ContractRequestParams}
    (read : query.readContractRequestParams = some params) :
    query.field "key" = some params.key := by
  unfold Query.readContractRequestParams at read
  split at read
  · next key uuid state fields =>
      obtain rfl := Option.some.inj read
      have := fields_of_structFields fields
      simp only [List.map_cons, List.cons.injEq] at this
      exact this.1.symm
  · cases read

theorem readEventRequestParams_key {query : Query} {params : EventRequestParams}
    (read : query.readEventRequestParams = some params) :
    query.field "key" = some params.key := by
  unfold Query.readEventRequestParams at read
  split at read
  · next key eventId fields =>
      obtain rfl := Option.some.inj read
      have := fields_of_structFields fields
      simp only [List.map_cons, List.cons.injEq] at this
      exact this.1.symm
  · cases read

/-- The key and signature that the middleware checks are those of the query. -/
theorem queryToCheck_fields {request : Request} {signature key : String}
    (checked : request.queryToCheck = some (some (signature, key))) :
    request.method = .get ∧ request.query.field "key" = some key ∧
      request.query.field "signature" = some signature := by
  unfold Request.queryToCheck at checked
  split_ifs at checked with event contract
  · obtain ⟨params, read, same⟩ := Option.map_eq_some_iff.mp (Option.some.inj checked)
    obtain ⟨rfl, rfl⟩ := Prod.mk.inj same
    unfold Query.readAuthenticatedEventQueryParams at read
    split at read
    · next fields =>
        obtain rfl := Option.some.inj read
        have := fields_of_structFields fields
        simp only [List.map_cons, List.cons.injEq] at this
        exact ⟨event.1, this.1.symm, this.2.2.1.symm⟩
    · cases read
  · obtain ⟨params, read, same⟩ := Option.map_eq_some_iff.mp (Option.some.inj checked)
    obtain ⟨rfl, rfl⟩ := Prod.mk.inj same
    unfold Query.readAuthenticatedContractQueryParams at read
    split at read
    · next fields =>
        obtain rfl := Option.some.inj read
        have := fields_of_structFields fields
        simp only [List.map_cons, List.cons.injEq] at this
        exact ⟨contract.1, this.1.symm, this.2.2.2.1.symm⟩
    · cases read

private theorem ok_of_toCall {α : Type} {make : α → Call} {params : Option α}
    {call : Call} (made : toCall make params = .ok call) :
    ∃ value, params = some value ∧ call = make value := by
  cases params with
  | none => cases made
  | some value => exact ⟨value, rfl, (Except.ok.inj made).symm⟩

/-- A GET reaches only handlers that write nothing and take the owner from the
query. -/
theorem dispatch_get {lib : Libraries} {request : Request} {call : Call}
    (method : request.method = .get)
    (dispatched : dispatch lib request = .ok call) :
    (∀ db, call.written db = []) ∧
      ∀ key, call.owner = some key → request.query.field "key" = some key := by
  unfold dispatch at dispatched
  simp only [method] at dispatched
  split_ifs at dispatched
  · obtain rfl := Except.ok.inj dispatched
    exact ⟨fun _ => rfl, fun _ named => (nomatch named)⟩
  · obtain rfl := Except.ok.inj dispatched
    exact ⟨fun _ => rfl, fun _ named => (nomatch named)⟩
  · obtain ⟨params, read, rfl⟩ := ok_of_toCall dispatched
    exact ⟨fun _ => rfl, fun key named =>
      named ▸ readContractRequestParams_key read⟩
  · obtain ⟨params, read, rfl⟩ := ok_of_toCall dispatched
    exact ⟨fun _ => rfl, fun key named =>
      named ▸ readEventRequestParams_key read⟩

/-- The unprotected paths lead to no rows. -/
theorem dispatch_unprotected {lib : Libraries} {request : Request} {call : Call}
    (unprotected : request.path ∈ unprotectedPaths)
    (dispatched : dispatch lib request = .ok call) : call.owner = none := by
  have plain : lib.requote request.path = request.path := by
    refine lib.requote_plain _ ?_
    simp only [unprotectedPaths, List.mem_cons, List.not_mem_nil, or_false]
      at unprotected
    rcases unprotected with path | path <;> rw [path] <;> decide
  have routes : request.path ≠ "/contracts" ∧ request.path ≠ "/events" ∧
      request.path ≠ "/contract" ∧ request.path ≠ "/event" ∧
      ckeyOf "/contracts" request.path = none ∧
      ckeyOf "/events" request.path = none := by
    simp only [unprotectedPaths, List.mem_cons, List.not_mem_nil, or_false]
      at unprotected
    rcases unprotected with path | path <;> rw [path] <;> decide
  unfold dispatch at dispatched
  rw [plain] at dispatched
  cases method : request.method <;>
    simp only [method, routes, if_false, reduceCtorEq] at dispatched
  case get =>
    split_ifs at dispatched
    · exact (Except.ok.inj dispatched) ▸ rfl
    · exact (Except.ok.inj dispatched) ▸ rfl

/-! ## The middleware lets only the owner through -/

/-- Every row that a handler writes in the step belongs to an allowed owner. -/
def WritesAllowed (allowed : String → Prop)
    (_past : List (Step Server Effect Effect.Answer))
    (step : Step Server Effect Effect.Answer) : Prop :=
  ∀ call, step.request = .handle call →
    ∀ key ∈ call.written step.before.db, allowed key

/-- Every row of a successful response belongs to an allowed owner. -/
def ReturnsAllowed (allowed : String → Prop) (result : Option Response) : Prop :=
  ∀ response, result = some response → response.status.isSuccess = true →
    ∀ key ∈ response.body.owners, allowed key

private theorem handle_owners (draw : Nat → String) (server : Server)
    (call : Call) :
    (server.handle draw call).1.body.owners =
      (call.respond server.db).1.body.owners := by
  cases call <;> rfl

/-- The service writes what its handler may write, and returns rows of the
owner its handler names. -/
theorem always_service (lib : Libraries) (draw : Nat → String)
    {allowed : String → Prop} (request : Request)
    (writes : ∀ call db key, dispatch lib request = .ok call →
      key ∈ call.written db → allowed key)
    (past : List (Step Server Effect Effect.Answer)) (server : Server) :
    Always (Server.answer draw).env Eq (WritesAllowed allowed)
      (fun _ response _ => ∀ key ∈ response.body.owners,
        ∃ call, dispatch lib request = .ok call ∧ call.owner = some key)
      past server (service lib request) := by
  unfold service
  cases dispatched : dispatch lib request with
  | ok call =>
      have routed (past : List (Step Server Effect Effect.Answer)) (server : Server) :
          Always (Server.answer draw).env Eq (WritesAllowed allowed)
            (fun _ response _ => ∀ key ∈ response.body.owners,
              ∃ routed, (.ok call : Except Response Call) = .ok routed ∧
                routed.owner = some key)
            past server (perform (Effect.handle call)) := by
        refine (always_ask_alone _ _).mpr ?_
        intro response after answered
        refine ⟨?_, fun key member => ⟨call, rfl, ?_⟩⟩
        · rintro _ ⟨⟩ key member
          exact writes call server.db key dispatched member
        · have same : response = (server.handle draw call).1 :=
            (congrArg Prod.fst answered).symm
          rw [same, handle_owners] at member
          exact Call.owner_of_returned member
      cases request.authorization with
      | some header =>
          refine (always_ask_alone _ _).mpr fun _ after _ => ⟨?_, routed _ after⟩
          rintro _ ⟨⟩
      | none => exact routed past server
  | error response =>
      have unowned : response.body.owners = [] := by
        rcases dispatch_error dispatched with rfl | rfl <;> rfl
      cases request.authorization with
      | some header =>
          refine (always_ask_alone _ _).mpr fun _ after _ => ⟨?_, ?_⟩
          · rintro _ ⟨⟩
          · intro key member
            cases unowned ▸ member
      | none =>
          intro key member
          cases unowned ▸ member

/-- A request that the middleware rejects may still write, but returns nothing
with a success status. -/
theorem always_rejected (lib : Libraries) (draw : Nat → String)
    {allowed : String → Prop} (request : Request)
    (writes : ∀ call db key, dispatch lib request = .ok call →
      key ∈ call.written db → allowed key)
    (past : List (Step Server Effect Effect.Answer)) (server : Server) :
    Always (Server.answer draw).env Eq (WritesAllowed allowed)
      (fun _ result _ => ReturnsAllowed allowed result)
      past server (rejected lib request) := by
  refine (always_bind _ _).mpr ((always_service lib draw request writes past
    server).post_mono ?_)
  rintro _ response _ - _ ⟨⟩ success
  cases success

private theorem always_checkQuery (lib : Libraries) (draw : Nat → String)
    {allowed : String → Prop} (request : Request) (nonces : List String)
    (nonce : String) (params : Option (String × String))
    (writes : ∀ call db key, dispatch lib request = .ok call →
      key ∈ call.written db → allowed key)
    (returns : ∀ signature key, params = some (signature, key) →
      verifyQueryParams lib signature key nonce = true →
        ∀ call owner, dispatch lib request = .ok call →
          call.owner = some owner → allowed owner)
    (past : List (Step Server Effect Effect.Answer)) (server : Server) :
    Always (Server.answer draw).env Eq (WritesAllowed allowed)
      (fun _ result _ => ReturnsAllowed allowed result)
      past server (checkQuery lib nonces nonce request params) := by
  refine (always_perform_alone _ _).mpr fun _ server _ => ⟨by rintro _ ⟨⟩, ?_⟩
  rcases params with _ | ⟨signature, key⟩
  · rintro _ ⟨⟩
  refine (always_bind _ _).mpr ((always_service lib draw request writes _
    server).post_mono ?_)
  intro past response server owners
  refine (always_perform_alone _ _).mpr fun _ server _ => ⟨by rintro _ ⟨⟩, ?_⟩
  rintro _ ⟨⟩ success owner member
  split_ifs at success member with accepted
  · obtain ⟨call, dispatched, named⟩ := owners owner member
    rw [Bool.and_eq_true] at accepted
    exact returns signature key rfl accepted.1 call owner dispatched named
  · cases success

private theorem always_checkBody (lib : Libraries) (draw : Nat → String)
    {allowed : String → Prop} (request : Request) (nonces : List String)
    (nonce : String)
    (refused : ∀ call db key, dispatch lib request.emptied = .ok call →
      key ∈ call.written db → allowed key)
    (accepted : ∀ body, request.authenticatedMessage = some body →
      verifyBody lib body = true →
        some nonce = (body.message.index "nonce").asStr →
          ∀ call owner, dispatch lib (request.carrying lib body.message) = .ok call →
            call.owner = some owner → allowed owner)
    (past : List (Step Server Effect Effect.Answer)) (server : Server) :
    Always (Server.answer draw).env Eq (WritesAllowed allowed)
      (fun _ result _ => ReturnsAllowed allowed result)
      past server (checkBody lib nonces nonce request) := by
  refine (always_perform_alone _ _).mpr fun _ server _ => ⟨by rintro _ ⟨⟩, ?_⟩
  split_ifs with tooLong
  · rintro _ ⟨⟩
  cases read : request.authenticatedMessage with
  | none => exact always_rejected lib draw request.emptied refused _ server
  | some body =>
      cases named : (body.message.index "nonce").asStr with
      | none =>
          simp only [named]
          exact always_rejected lib draw request.emptied refused _ server
      | some messageNonce =>
          simp only [named]
          refine (always_perform_alone _ _).mpr fun _ server _ => ⟨by rintro _ ⟨⟩, ?_⟩
          split_ifs with verified
          · simp only [Bool.and_eq_true, decide_eq_true_eq] at verified
            have allows := accepted body read verified.1.1
              (by rw [named, verified.2])
            refine (always_bind _ _).mpr ((always_service lib draw
              (request.carrying lib body.message) ?_ _ server).post_mono ?_)
            · intro call db key dispatched member
              exact allows call key dispatched (Call.owner_of_written member)
            · rintro _ response _ owners _ ⟨⟩ - owner member
              obtain ⟨call, dispatched, named⟩ := owners owner member
              exact allows call owner dispatched named
          · exact always_rejected lib draw request.emptied refused _ server

/-- What is written unverified is signed for. -/
theorem Consistent.unverified_writes {lib : Libraries} {request : Request}
    (consistent : Consistent lib request) (call : Call) (db : Database)
    (key : String) (dispatched : dispatch lib request.unverified = .ok call)
    (member : key ∈ call.written db) : SignedUnder lib request key := by
  by_cases method : request.method = .get
  · have same : request.unverified.method = .get := by
      unfold Request.unverified
      split <;> exact method
    rw [(dispatch_get same dispatched).1 db] at member
    cases member
  · exact (consistent.unverified method call key dispatched
      (Call.owner_of_written member)).signedUnder

/-- A consistent request touches only rows of owners under whose key it is
signed. -/
theorem always_signed (lib : Libraries) (draw : Nat → String) (request : Request)
    (authorized : request.authorization ≠ none)
    (consistent : Consistent lib request) (server : Server) :
    Always (Server.answer draw).env Eq
      (WritesAllowed (SignedUnder lib request))
      (fun _ result _ => ReturnsAllowed (SignedUnder lib request) result)
      [] server (call lib request) := by
  have unverified := consistent.unverified_writes
  unfold Request.unverified at unverified
  unfold call
  split_ifs with unprotected
  · refine (always_bind _ _).mpr ((always_service lib draw request ?_ _
      server).post_mono ?_)
    · intro call db key dispatched member
      have named := Call.owner_of_written member
      rw [dispatch_unprotected unprotected dispatched] at named
      cases named
    · rintro _ response _ owners _ ⟨⟩ - owner member
      obtain ⟨call, dispatched, named⟩ := owners owner member
      rw [dispatch_unprotected unprotected dispatched] at named
      cases named
  refine (always_perform_alone _ _).mpr fun nonces server _ => ⟨by rintro _ ⟨⟩, ?_⟩
  cases header : request.authorization with
  | none => exact absurd header authorized
  | some value =>
      rw [header] at unverified
      cases value with
      | obscure bytes => exact always_rejected lib draw request unverified _ server
      | visible nonce =>
          simp only [HeaderValue.toStr]
          cases query : request.queryToCheck with
          | none =>
              refine always_checkBody lib draw request nonces nonce unverified ?_ _
                server
              intro body read verified named call owner dispatched owned
              exact SignedBody.signedUnder ⟨body, read, verified,
                consistent.verified query nonce body header read verified named
                  call owner dispatched owned⟩
          | some params =>
              have method : request.method = .get := by
                unfold Request.queryToCheck at query
                split_ifs at query with event contract
                · exact event.1
                · exact contract.1
              refine always_checkQuery lib draw request nonces nonce params ?_ ?_ _
                server
              · intro call db key dispatched member
                rw [(dispatch_get method dispatched).1 db] at member
                cases member
              · rintro signature key rfl verified call owner dispatched owned
                obtain ⟨-, keyField, signatureField⟩ := queryToCheck_fields query
                have ownerField := (dispatch_get method dispatched).2 owner owned
                rw [keyField] at ownerField
                obtain rfl := Option.some.inj ownerField
                exact .inl ⟨nonce, signature, header,
                  Query.field_mem signatureField, verified⟩

/-- In every sequence of requests, those with an `Authorization` header whose
parts agree on the owner touch only rows of owners under whose key they carry a
signature. -/
theorem touched_only_by_signer (lib : Libraries) (draw : Nat → String)
    {start final : Server}
    {sessions : List
      (Session Request Server Effect Effect.Answer (Option Response))}
    (runs : RunsEach (Server.answer draw).env (call lib) start sessions final)
    (consistent : ∀ session ∈ sessions, session.operation.authorization ≠ none →
      Consistent lib session.operation) :
    ∀ session ∈ sessions, session.operation.authorization ≠ none →
      ∀ key, Touches session key → SignedUnder lib session.operation key := by
  have kept := runs.invariant (fun _ => True)
    (fun request => request.authorization ≠ none → Consistent lib request)
    (fun request past step => request.authorization ≠ none →
      WritesAllowed (SignedUnder lib request) past step)
    (fun request _ result => request.authorization ≠ none →
      ReturnsAllowed (SignedUnder lib request) result)
    ?_ consistent trivial
  · intro session member authorized key touched
    obtain ⟨steps, result⟩ := kept.2 session member
    rcases touched with ⟨step, taken, call, handled, written⟩ |
      ⟨response, returned, success, owned⟩
    · obtain ⟨front, back, split⟩ := List.append_of_mem taken
      exact steps front step back split authorized call handled key written
    · exact result authorized response returned success key owned
  · intro request server admitted _
    by_cases authorized : request.authorization = none
    · exact always_of_forall (fun _ _ other => absurd authorized other)
        (fun _ _ _ => ⟨trivial, fun other => absurd authorized other⟩) _
    · exact (always_signed lib draw request authorized (admitted authorized)
        server).mono (fun _ _ good _ => good)
        (fun _ _ _ returns => ⟨trivial, fun _ => returns⟩)

/-! ## One request that agrees and one that does not -/

/-- `GET /request_nonce` -/
def sampleNonceRequest : Request :=
  ⟨.get, "/request_nonce", [], some (.visible "none"), false, .empty⟩

/-- The message that creates a contract of `alice`. -/
def sampleMessage : Json :=
  .object [("content", .string "content"), ("key", .string "alice"),
    ("nonce", .string "nonce"), ("state", .string "offered"),
    ("uuid", .string "uuid")]

/-- `POST /contracts` with the message above, signed by `signer`. -/
def samplePost (signer : String) : Request :=
  ⟨.post, "/contracts", [], some (.visible "nonce"), true,
    ⟨300, some (.object [("message", sampleMessage),
      ("public_key", .string signer),
      ("signature", .string (signer ++ ":" ++ sampleMessage.text))])⟩⟩

/-- The sessions of a server that hands out a nonce and then gets the message
signed by `signer`. -/
def samplePostSessions (signer : String) :
    List (Session Request Server Effect Effect.Answer (Option Response)) :=
  (evalEach (Server.answer fun _ => "nonce") (call .symbolic)
    [sampleNonceRequest, samplePost signer] (.initial .empty)).1

private theorem samplePostSessions_run (signer : String) :
    ∃ final, RunsEach (Server.answer fun _ => "nonce").env (call .symbolic)
      (.initial .empty) (samplePostSessions signer) final :=
  ⟨_, runsEach_evalEach _ (fun _ _ => rfl) _ _ _⟩

/-- A verified message creates a contract of an owner who signed nothing. -/
theorem foreign_message_touches :
    ¬ ∀ (lib : Libraries) (draw : Nat → String) (start final : Server)
      (sessions : List
        (Session Request Server Effect Effect.Answer (Option Response))),
      RunsEach (Server.answer draw).env (call lib) start sessions final →
      (∀ session ∈ sessions, session.operation.authorization ≠ none) →
      ∀ session ∈ sessions, ∀ key, Touches session key →
        SignedUnder lib session.operation key := by
  intro claimed
  obtain ⟨final, run⟩ := samplePostSessions_run "mallory"
  have signed := claimed .symbolic _ _ _ _ run (by decide)
    ((samplePostSessions "mallory").get ⟨1, by decide⟩) (List.get_mem _ _) "alice"
    (.inr ⟨⟨.ok, .contract ⟨1, "uuid", "offered", "content", "alice"⟩⟩,
      by decide, by decide, by decide⟩)
  rcases signed with ⟨_, _, _, member, _⟩ | ⟨body, read, verified⟩
  · cases member
  · obtain rfl := Option.some.inj read
    exact absurd verified (by decide)

private theorem sampleNonceRequest_consistent :
    Consistent .symbolic sampleNonceRequest where
  verified := fun _ _ _ _ read => nomatch read
  unverified := fun method => absurd rfl method

private theorem samplePost_consistent :
    Consistent .symbolic (samplePost "alice") where
  verified := by
    intro _ nonce body _ read _ _ call key dispatched owned
    obtain rfl := Option.some.inj read
    obtain rfl := Except.ok.inj dispatched
    obtain rfl := Option.some.inj owned
    rfl
  unverified := fun _ _ _ dispatched => nomatch dispatched

/-- The owner's own message creates a contract that it is signed for. -/
theorem touched_only_by_signer_samplePost :
    Touches ((samplePostSessions "alice").get ⟨1, by decide⟩) "alice" ∧
      SignedUnder .symbolic (samplePost "alice") "alice" := by
  have touched : Touches ((samplePostSessions "alice").get ⟨1, by decide⟩) "alice" :=
    .inr ⟨⟨.ok, .contract ⟨1, "uuid", "offered", "content", "alice"⟩⟩,
      by decide, by decide, by decide⟩
  obtain ⟨final, run⟩ := samplePostSessions_run "alice"
  refine ⟨touched, touched_only_by_signer .symbolic _ run ?_ _ (List.get_mem _ _)
    (by decide) _ touched⟩
  intro session member _
  have operations : (samplePostSessions "alice").map (fun session =>
      session.operation) = [sampleNonceRequest, samplePost "alice"] := rfl
  have listed : session.operation ∈ [sampleNonceRequest, samplePost "alice"] :=
    operations ▸ List.mem_map_of_mem member
  rcases List.mem_cons.mp listed with same | listed
  · exact same ▸ sampleNonceRequest_consistent
  · exact List.mem_singleton.mp listed ▸ samplePost_consistent

end Storage

end DlcStack
