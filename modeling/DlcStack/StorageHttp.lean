import DlcStack.EffectSimulation
import DlcStack.StorageApiClient
import DlcStack.StorageSignedRequests

/-!
# The client over HTTP

The requests of the storage client as they are sent to the server, each to be lost before
it arrives, or with its reply, as the network likes.  A nonce is asked for, and a signed
request goes through the middleware to its handler, step by step among the steps of all
other requests.

To its caller an operation of the client is one call all the same: it has the effect and
the response of its handler, at the moment of that handler, or it fails and has no effect or
that effect.
-/

namespace DlcStack

namespace Storage

open Program

variable {lib : Libraries}

/-! ## What becomes of a signed request -/

/-- A signed query on its way through the middleware. -/
def queryCall (nonce : String) (call : Call) :
    Program Effect Effect.Answer (Option Response) := do
  let nonces ← perform Effect.copyNonces
  perform Effect.extract
  perform (Effect.removeNonce (.visible nonce))
  let response ← perform (Effect.handle call)
  perform (Effect.verification (nonces.contains nonce))
  return some (if nonces.contains nonce then response else response.forbid)

/-- A signed message on its way through the middleware. -/
def messageCall (fits : Bool) (nonce : String) (call : Call) :
    Program Effect Effect.Answer (Option Response) := do
  let nonces ← perform Effect.copyNonces
  perform Effect.extract
  if fits then
    perform (Effect.verification (nonces.contains nonce))
    perform (Effect.removeNonce (.visible nonce))
    if nonces.contains nonce then
      let response ← perform (Effect.handle call)
      return some response
    else
      return some extractionError.forbid
  else
    return none

theorem call_sendQuery {signer : Signer lib} (agrees : signer.Agrees)
    (secretKey : signer.SecretKey) {path nonce : String} {query : Query} {call : Call}
    (guarded : path ∉ unprotectedPaths)
    (checked : (Signer.sendQuery path query nonce).queryToCheck =
      some (some (signer.signatureToString (signer.sign secretKey nonce).1,
        signer.publicKeyToString (signer.publicKey secretKey))))
    (dispatched : dispatch lib (Signer.sendQuery path query nonce) = .ok call) :
    Storage.call lib (Signer.sendQuery path query nonce) = queryCall nonce call := by
  have verified := verifies_sign agrees secretKey nonce
  rw [call_eq_checkQuery guarded rfl checked]
  apply congrArg (perform Effect.copyNonces >>= ·)
  funext nonces
  have accepted : (verifyQueryParams lib
      (signer.signatureToString (signer.sign secretKey nonce).1)
      (signer.publicKeyToString (signer.publicKey secretKey)) nonce &&
        nonces.contains nonce) = nonces.contains nonce := by
    rw [verifyQueryParams, verified, Bool.true_and]
  unfold checkQuery service
  dsimp only
  rw [accepted, dispatched]
  rfl

theorem call_sendMessage {signer : Signer lib} (agrees : signer.Agrees) (nests : lib.Nests)
    (secretKey : signer.SecretKey) {α : Type} (read : Json → Option α) (make : α → Call)
    (params : α) {method : Method} {path nonce : String} {fields : List (String × Json)}
    (notGet : method ≠ .get) (guarded : path ∉ unprotectedPaths)
    (distinct : ("nonce" :: fields.map Prod.fst).Nodup)
    (values : ∀ field ∈ fields, field.2.toValue = field.2)
    (routed : ∀ payload : Payload,
      let request : Request :=
        ⟨method, path, [], some (.visible nonce), true, payload⟩
      dispatch lib request = toCall make (request.extractJson read))
    (unordered : Json.Unordered read)
    (reads : read (.object (("nonce", .string nonce) :: fields)) = some params) :
    Storage.call lib (signer.sendMessage secretKey method path (Json.ofFields fields) nonce) =
      messageCall (decide ((signer.sendMessage secretKey method path (Json.ofFields fields)
        nonce).payload.length ≤ bytesLimit)) nonce (make params) := by
  let body := signer.buildSignedMessage secretKey (Json.ofFields fields) nonce
  let request := signer.sendMessage secretKey method path (Json.ofFields fields) nonce
  have reordered : body.message.Perm (("nonce", .string nonce) :: fields) :=
    Json.insertSorted_ofFields_perm distinct
  have distinctMessage : (body.message.map Prod.fst).Nodup :=
    (reordered.map Prod.fst).nodup_iff.mpr distinct
  have authenticated : request.authenticatedMessage =
      some ⟨.object body.message, body.publicKey, body.signature⟩ := by
    apply readAuthenticatedMessage_toJson distinctMessage
    intro member memberMem
    rcases List.mem_cons.mp (reordered.mem_iff.mp memberMem) with rfl | field
    · exact Json.toValue_string nonce
    · exact values member field
  have named : ((Json.object body.message).index "nonce").asStr = some nonce := by
    rw [Json.index_object distinctMessage (reordered.mem_iff.mpr (List.mem_cons_self ..)),
      Json.asStr]
  have verified : verifyBody lib
      ⟨.object body.message, body.publicKey, body.signature⟩ = true :=
    verifies_sign agrees secretKey _
  have noQuery : request.queryToCheck = none := by
    simp [request, Request.queryToCheck, Signer.sendMessage, notGet]
  have refused : dispatch lib request.emptied = .error extractionError := routed .empty
  rw [@call_eq_checkBody lib request nonce guarded rfl noQuery]
  apply congrArg (perform Effect.copyNonces >>= ·)
  funext nonces
  apply congrArg (perform Effect.extract >>= ·)
  funext extracted
  have accepted : (verifyBody lib ⟨.object body.message, body.publicKey, body.signature⟩ &&
      nonces.contains nonce && decide (nonce = nonce)) = nonces.contains nonce := by
    simp [verified]
  by_cases fits : request.payload.length ≤ bytesLimit
  · have carried : (lib.print (.object body.message)).utf8ByteSize ≤ jsonLimit :=
      le_trans (le_trans (print_message_le nests body) fits) (by decide)
    have dispatched : dispatch lib (request.carrying lib (.object body.message)) =
        .ok (make params) := by
      apply (routed ⟨_, some (.object body.message)⟩).trans
      rw [Request.extractJson, if_pos ⟨rfl, carried⟩, Option.bind_some,
        unordered _ _ reordered distinctMessage, reads]
      rfl
    rw [if_neg (not_lt.mpr fits), authenticated, if_pos (decide_eq_true fits)]
    dsimp only
    rw [named]
    dsimp only
    rw [accepted]
    apply congrArg (perform (Effect.verification (nonces.contains nonce)) >>= ·)
    funext checked
    unfold rejected service
    rw [dispatched, refused]
    cases nonces.contains nonce <;> rfl
  · rw [if_pos (not_le.mp fits), if_neg (by simpa using fits)]

/-- The operation of the client that a call is made by. -/
def Operation.ofCall? : Call → Option Operation
  | .getContracts params => some (.getContracts params)
  | .getEvents params => some (.getEvents params)
  | .createContract contract => some (.createContract contract)
  | .createEvent event => some (.createEvent event)
  | .updateEvent event => some (.updateEvent event)
  | .updateContract contract => some (.updateContract contract)
  | .deleteEvent event => some (.deleteEvent event)
  | .deleteContract contract => some (.deleteContract contract)
  | _ => none

@[simp]
theorem Operation.ofCall?_call (operation : Operation) :
    ofCall? operation.call = some operation := by
  cases operation <;> rfl

/-- The request of an operation on its way through the middleware. -/
theorem call_request {signer : Signer lib} (agrees : signer.Agrees) (nests : lib.Nests)
    (secretKey : signer.SecretKey) (operation : Operation) (nonce : String)
    (owned : operation.key = signer.publicKeyToString (signer.publicKey secretKey)) :
    Storage.call lib (operation.request signer secretKey nonce) =
        queryCall nonce operation.call ∨
      ∃ fits, Storage.call lib (operation.request signer secretKey nonce) =
        messageCall fits nonce operation.call := by
  have contracts : lib.requote "/contracts" = "/contracts" :=
    lib.requote_plain _ (by decide)
  have events : lib.requote "/events" = "/events" :=
    lib.requote_plain _ (by decide)
  have contract : lib.requote "/contract" = "/contract" :=
    lib.requote_plain _ (by decide)
  have event : lib.requote "/event" = "/event" :=
    lib.requote_plain _ (by decide)
  cases operation with
  | getContracts contractReq =>
      left
      obtain ⟨key, uuid, state⟩ := contractReq
      obtain rfl : key = _ := owned
      have read := read_contractsQuery
        (signer.publicKeyToString (signer.publicKey secretKey))
        (signer.signatureToString (signer.sign secretKey nonce).1) uuid state
      apply call_sendQuery agrees secretKey (by decide)
      · rw [queryToCheck_contracts, read.1]
        rfl
      · simp only [dispatch, Signer.sendQuery, contracts]
        rw [read.2]
        rfl
  | getEvents eventReq =>
      left
      obtain ⟨key, eventId⟩ := eventReq
      obtain rfl : key = _ := owned
      have read := read_eventsQuery
        (signer.publicKeyToString (signer.publicKey secretKey))
        (signer.signatureToString (signer.sign secretKey nonce).1) eventId
      apply call_sendQuery agrees secretKey (by decide)
      · rw [queryToCheck_events, read.1]
        rfl
      · simp only [dispatch, Signer.sendQuery, events]
        rw [read.2]
        rfl
  | createContract newContract =>
      refine .inr ⟨_, call_sendMessage agrees nests secretKey Json.readNewContract
        .createContract newContract (by decide) (by decide) (by simp) (by simp) ?_
        Json.unordered_readNewContract ?_⟩
      · simp [dispatch, contracts]
      · simp [Json.readNewContract, Json.structFields, Json.stringField, Json.asStr]
  | createEvent newEvent =>
      refine .inr ⟨_, call_sendMessage agrees nests secretKey Json.readNewEvent
        .createEvent newEvent (by decide) (by decide) (by simp) (by simp) ?_
        Json.unordered_readNewEvent ?_⟩
      · simp [dispatch, events]
      · simp [Json.readNewEvent, Json.structFields, Json.stringField, Json.asStr]
  | updateEvent update =>
      refine .inr ⟨_, call_sendMessage agrees nests secretKey Json.readUpdateEvent
        .updateEvent update (by decide) (by decide) (by simp) (by simp) ?_
        Json.unordered_readUpdateEvent ?_⟩
      · simp [dispatch, events]
      · simp [Json.readUpdateEvent, Json.structFields, Json.stringField, Json.asStr]
  | updateContract update =>
      refine .inr ⟨_, call_sendMessage agrees nests secretKey Json.readUpdateContract
        .updateContract update (by decide) (by decide) (by simp) (by simp) ?_
        Json.unordered_readUpdateContract ?_⟩
      · simp [dispatch, contracts]
      · simp [Json.readUpdateContract, Json.structFields, Json.stringField, Json.asStr]
  | deleteEvent deleted =>
      refine .inr ⟨_, call_sendMessage agrees nests secretKey Json.readDeleteEvent
        .deleteEvent deleted (by decide) (by decide) (by simp) (by simp) ?_
        Json.unordered_readDeleteEvent ?_⟩
      · simp [dispatch, event]
      · simp [Json.readDeleteEvent, Json.structFields, Json.stringField, Json.asStr]
  | deleteContract deleted =>
      refine .inr ⟨_, call_sendMessage agrees nests secretKey Json.readDeleteContract
        .deleteContract deleted (by decide) (by decide) (by simp) (by simp) ?_
        Json.unordered_readDeleteContract ?_⟩
      · simp [dispatch, contract]
      · simp [Json.readDeleteContract, Json.structFields, Json.stringField, Json.asStr]

/-- `GET /request_nonce` -/
def nonceRequest : Request :=
  ⟨.get, "/request_nonce", [], none, false, .empty⟩

/-- The request for a nonce on its way to the handler. -/
theorem call_nonceRequest (lib : Libraries) :
    Storage.call lib nonceRequest = (do
      let response ← perform (Effect.handle .requestNonce)
      return some response) := by
  have path : lib.requote "/request_nonce" = "/request_nonce" :=
    lib.requote_plain _ (by decide)
  have dispatched : dispatch lib nonceRequest = .ok .requestNonce := by
    simp [dispatch, nonceRequest, path]
  have unprotected : nonceRequest.path ∈ unprotectedPaths := by decide
  unfold Storage.call service
  rw [if_pos unprotected, dispatched]
  rfl

end Storage

namespace Clients

open Program

/-! ## The requests of the client -/

/-- What the network does with a request. -/
inductive Delivery where
  | delivered
  | requestLost (message : String)
  | replyLost (message : String)

/-- A request is given to the network, and goes its way through the server. -/
inductive HttpEffect where
  | deliver
  | server (effect : Storage.Effect)

abbrev HttpEffect.Answer : HttpEffect → Type
  | deliver => Delivery
  | server effect => effect.Answer

/-- The network does as it likes, and the server as it must. -/
def Http (draw : Nat → String) :
    Environment Storage.Server HttpEffect HttpEffect.Answer
  | before, .deliver, _, after => after = before
  | before, .server effect, answer, after =>
      (Storage.Server.answer draw).env before effect answer after

/-- The client of one owner, and what `reqwest` says of a connection that ends without a
response. -/
structure HttpApi (lib : Storage.Libraries) where
  signer : Storage.Signer lib
  secretKey : signer.SecretKey
  closed : String

/-- The error of `reqwest` as an `ApiError`. -/
def fromReqwest (message : String) : ApiError :=
  ⟨message, 400⟩

namespace HttpApi

variable {lib : Storage.Libraries}

def key (api : HttpApi lib) : String :=
  api.signer.publicKeyToString (api.signer.publicKey api.secretKey)

/-- What the client sees of a request to the server; after a panic there is no response. -/
def conclude (api : HttpApi lib)
    (processed : Program Storage.Effect Storage.Effect.Answer (Option Storage.Response)) :
    Program HttpEffect HttpEffect.Answer (Except ApiError Storage.Response) := do
  match ← processed.relabel HttpEffect.server fun _ => id with
  | some response => return .ok response
  | none => return .error (fromReqwest api.closed)

/-- The request on its way through the server. -/
def arrive (api : HttpApi lib) (request : Storage.Request) :
    Program HttpEffect HttpEffect.Answer (Except ApiError Storage.Response) :=
  api.conclude (Storage.call lib request)

/-- The client waits for a reply in vain. -/
def loseReply (api : HttpApi lib) (request : Storage.Request) (message : String) :
    Program HttpEffect HttpEffect.Answer (Except ApiError Storage.Response) := do
  let _ ← api.arrive request
  return .error (fromReqwest message)

/-- `send().await?` -/
def sendRequest (api : HttpApi lib) (request : Storage.Request) :
    Program HttpEffect HttpEffect.Answer (Except ApiError Storage.Response) := do
  match ← perform HttpEffect.deliver with
  | .delivered => api.arrive request
  | .requestLost message => return .error (fromReqwest message)
  | .replyLost message => api.loseReply request message

/-- `res.text().await?`; only for nonces, which are text. -/
def readText (res : Storage.Response) : Except ApiError String :=
  match res.body with
  | .text text => .ok text
  | _ => .error (fromReqwest StorageApiClient.decodeError)

/-- The client's requests as HTTP requests. -/
def carryOut (api : HttpApi lib) : (request : ApiRequest) →
    Program HttpEffect HttpEffect.Answer request.Answer
  | .requestNonce => do
      let res ← api.sendRequest Storage.nonceRequest
      return res.bind readText
  | .send nonce call =>
      match Storage.Operation.ofCall? call with
      | some operation => api.sendRequest (operation.request api.signer api.secretKey nonce)
      | none => return .error (fromReqwest "no operation of the client")

end HttpApi

/-! ## What an operation is to its caller -/

/-- The server has the rows of the database. -/
def Serves (db : Storage.Database) (server : Storage.Server) : Prop :=
  server.db = db

/-- What is read of a response depends on its body, and texts are not read. -/
structure ReadsBody {α : Type} (read : Storage.Response → Except ApiError α) : Prop where
  lenient : ∀ status status' body value,
    read ⟨status, body⟩ = .ok value → read ⟨status', body⟩ = .ok value
  refuses : ∀ status text, ∃ error, read ⟨status, .text text⟩ = .error error

/-- What a caller makes of an operation's response can be made of an answer that the
network may give. -/
structure Concludes {α : Type} (read : Storage.Response → Except ApiError α)
    (finish : Except ApiError Storage.Response → Except ApiError α) : Prop where
  handled : ∀ (response : Storage.Response) (status : Storage.StatusCode),
    ∃ answer : Except ApiError Storage.Response,
      answer.bind read = finish (.ok ⟨status, response.body⟩) ∧
        (answer = .ok response ∨ ∃ error, answer = .error error)
  refused : ∃ error, finish (.ok Storage.extractionError.forbid) = .error error
  panicked : ∀ message, ∃ error, finish (.error (fromReqwest message)) = .error error

theorem ReadsBody.concludes {α : Type} {read : Storage.Response → Except ApiError α}
    (readsBody : ReadsBody read) : Concludes read fun res => res.bind read where
  handled response status := by
    cases result : read ⟨status, response.body⟩ with
    | ok value =>
        have same := readsBody.lenient status response.status response.body value result
        exact ⟨.ok response, same.trans result.symm, .inl rfl⟩
    | error error => exact ⟨.error error, result.symm, .inr ⟨error, rfl⟩⟩
  refused := readsBody.refuses _ _
  panicked _ := ⟨_, rfl⟩

theorem concludes_error {α : Type} (read : Storage.Response → Except ApiError α)
    (error : ApiError) : Concludes read fun _ => .error error where
  handled _ _ := ⟨.error error, rfl, .inr ⟨error, rfl⟩⟩
  refused := ⟨error, rfl⟩
  panicked _ := ⟨error, rfl⟩

theorem readsBody_readContract : ReadsBody StorageApiClient.readContract where
  lenient _ _ body value isValue := by
    cases body <;> first
      | exact isValue
      | cases isValue
  refuses _ _ := ⟨_, rfl⟩

theorem readsBody_readContracts : ReadsBody StorageApiClient.readContracts where
  lenient _ _ body value isValue := by
    cases body <;> first
      | exact isValue
      | cases isValue
  refuses _ _ := ⟨_, rfl⟩

theorem readsBody_readEffectedNum (failed noEffect : String) :
    ReadsBody (StorageApiClient.readEffectedNum failed noEffect) where
  lenient _ _ body value isValue := by
    cases body with
    | effectedNum count =>
        cases count with
        | zero => cases isValue
        | succ count => exact isValue
    | _ => cases isValue
  refuses _ _ := ⟨_, rfl⟩

section CarriesOut

variable {draw : Nat → String} {α : Type}

/-- A step of the server that runs no handler. -/
theorem carriesOut_server_silent {effect : Storage.Effect}
    {next : effect.Answer → Program HttpEffect HttpEffect.Answer α}
    {specified : Program ApiRequest ApiRequest.Answer α}
    (quiet : ∀ call, effect ≠ .handle call)
    (later : ∀ answer, CarriesOut (Http draw) Network Serves (next answer) specified) :
    CarriesOut (Http draw) Network Serves (ask (HttpEffect.server effect) next) specified := by
  apply carriesOut_ask_silent
  intro db before serves answer after served
  refine ⟨?_, later answer⟩
  have same : (Storage.Server.answer draw before effect).2 = after := congrArg Prod.snd served
  subst same
  cases effect with
  | handle call => exact absurd rfl (quiet call)
  | _ => exact serves

/-- The step of the server that runs the handler. -/
theorem carriesOut_server_handle {call : Storage.Call} {nonce : String}
    {next : Storage.Response → Program HttpEffect HttpEffect.Answer α}
    {rest : Except ApiError Storage.Response → Program ApiRequest ApiRequest.Answer α}
    (notNonce : call ≠ .requestNonce)
    (later : ∀ response, ∃ answer,
      (answer = .ok response ∨ ∃ error, answer = .error error) ∧
        CarriesOut (Http draw) Network Serves (next response) (rest answer)) :
    CarriesOut (Http draw) Network Serves (ask (HttpEffect.server (.handle call)) next)
      (ask (ApiRequest.send nonce call) rest) := by
  intro db before serves response after served
  obtain ⟨rfl, rfl⟩ : (call.respond before.db).1 = response ∧
      { before with db := (call.respond before.db).2 } = after := by
    have handled : before.handle draw call = (response, after) := served
    cases call with
    | requestNonce => exact absurd rfl notNonce
    | _ => exact Prod.mk.inj handled
  obtain rfl : before.db = db := serves
  obtain ⟨answer, isAnswer, carries⟩ := later (call.respond before.db).1
  refine ⟨rest answer, (call.respond before.db).2, .one ?_, rfl, carries⟩
  rcases isAnswer with rfl | ⟨error, rfl⟩
  · exact .inl ⟨rfl, rfl⟩
  · exact .inr ⟨⟨error, rfl⟩, .inr rfl⟩

/-- A request without effect is a request that was lost. -/
theorem carriesOut_lost {nonce : String} {call : Storage.Call} {result : α}
    {rest : Except ApiError Storage.Response → Program ApiRequest ApiRequest.Answer α}
    (lost : ∃ error, rest (.error error) = ret result) :
    CarriesOut (Http draw) Network Serves (ret result)
      (ask (ApiRequest.send nonce call) rest) := by
  intro db server serves
  obtain ⟨error, ends⟩ := lost
  refine ⟨db, ?_, serves⟩
  rw [← ends]
  exact .one (.inr ⟨⟨error, rfl⟩, .inl rfl⟩)

section Requests

variable {lib : Storage.Libraries} {api : HttpApi lib} {nonce : String} {call : Storage.Call}
  {read : Storage.Response → Except ApiError α}
  {finish : Except ApiError Storage.Response → Except ApiError α}

/-- The response of a request that the server was sent. -/
theorem carriesOut_arrive {request : Storage.Request} (concludes : Concludes read finish)
    (notNonce : call ≠ .requestNonce)
    (processed : Storage.call lib request = Storage.queryCall nonce call ∨
      ∃ fits, Storage.call lib request = Storage.messageCall fits nonce call) :
    CarriesOut (Http draw) Network Serves
      (api.arrive request >>= fun res => ret (finish res))
      (ask (ApiRequest.send nonce call) fun res => ret (res.bind read)) := by
  -- what is made of the handler's response with the status it has in the end
  have handled (response : Storage.Response) (status : Storage.StatusCode) :
      ∃ answer : Except ApiError Storage.Response,
        (answer = .ok response ∨ ∃ error, answer = .error error) ∧
        CarriesOut (Http draw) Network Serves (ret (finish (.ok ⟨status, response.body⟩)))
          (ret (answer.bind read)) := by
    obtain ⟨answer, same, isAnswer⟩ := concludes.handled response status
    rw [← same]
    exact ⟨answer, isAnswer, carriesOut_ret _⟩
  unfold HttpApi.arrive
  rcases processed with processed | ⟨fits, processed⟩
  · rw [processed]
    refine carriesOut_server_silent (by simp) fun nonces => ?_
    refine carriesOut_server_silent (by simp) fun _ => ?_
    refine carriesOut_server_silent (by simp) fun _ => ?_
    refine carriesOut_server_handle notNonce fun response => ?_
    obtain ⟨answer, isAnswer, carries⟩ :=
      handled response (if nonces.contains nonce then response.status else .forbidden)
    have forbids : (if nonces.contains nonce then response else response.forbid) =
        ⟨if nonces.contains nonce then response.status else .forbidden, response.body⟩ := by
      split_ifs <;> rfl
    rw [← forbids] at carries
    exact ⟨answer, isAnswer, carriesOut_server_silent (by simp) fun _ => carries⟩
  · rw [processed]
    refine carriesOut_server_silent (by simp) fun nonces => ?_
    refine carriesOut_server_silent (by simp) fun _ => ?_
    cases fits with
    | false =>
        apply carriesOut_lost
        obtain ⟨error, ends⟩ := concludes.panicked api.closed
        exact ⟨error, by rw [ends]; rfl⟩
    | true =>
        have checked (listed : Bool) : CarriesOut (Http draw) Network Serves
            (api.conclude (if listed then do
                let response ← perform (Storage.Effect.handle call)
                return some response
              else return some Storage.extractionError.forbid) >>= fun res => ret (finish res))
            (ask (ApiRequest.send nonce call) fun res => ret (res.bind read)) := by
          cases listed with
          | true => exact carriesOut_server_handle notNonce fun response =>
              handled response response.status
          | false =>
              apply carriesOut_lost
              obtain ⟨error, ends⟩ := concludes.refused
              exact ⟨error, by rw [ends]; rfl⟩
        refine carriesOut_server_silent (by simp) fun _ => ?_
        refine carriesOut_server_silent (by simp) fun _ => ?_
        exact checked (nonces.contains nonce)

/-- A step of the network. -/
theorem carriesOut_deliver {next : Delivery → Program HttpEffect HttpEffect.Answer α}
    {specified : Program ApiRequest ApiRequest.Answer α}
    (later : ∀ delivery, CarriesOut (Http draw) Network Serves (next delivery) specified) :
    CarriesOut (Http draw) Network Serves (ask HttpEffect.deliver next) specified := by
  apply carriesOut_ask_silent
  intro db before serves answer after served
  obtain rfl : after = before := served
  exact ⟨serves, later answer⟩

/-- The response of a request that is given to the network. -/
theorem carriesOut_sendRequest {request : Storage.Request} (readsBody : ReadsBody read)
    (notNonce : call ≠ .requestNonce)
    (processed : Storage.call lib request = Storage.queryCall nonce call ∨
      ∃ fits, Storage.call lib request = Storage.messageCall fits nonce call) :
    CarriesOut (Http draw) Network Serves
      (api.sendRequest request >>= fun res => ret (res.bind read))
      (ask (ApiRequest.send nonce call) fun res => ret (res.bind read)) := by
  apply carriesOut_deliver
  intro delivery
  cases delivery with
  | delivered => exact carriesOut_arrive readsBody.concludes notNonce processed
  | requestLost message => exact carriesOut_lost ⟨fromReqwest message, rfl⟩
  | replyLost message =>
      have failed : api.loseReply request message >>= (fun res => ret (res.bind read)) =
          api.arrive request >>= fun _ => ret (.error (fromReqwest message)) :=
        bind_assoc ..
      change CarriesOut _ _ _ (api.loseReply request message >>= _) _
      rw [failed]
      exact carriesOut_arrive (concludes_error read (fromReqwest message)) notNonce processed

/-- The request for a nonce leaves the rows. -/
theorem carriesOut_requestNonce :
    CarriesOut (Http draw) Network Serves (api.carryOut .requestNonce)
      (perform ApiRequest.requestNonce) := by
  have anything (result : Except ApiError String) :
      CarriesOut (Http draw) Network Serves (ret result) (perform ApiRequest.requestNonce) :=
    fun db server serves => ⟨db, .one rfl, serves⟩
  -- the handler draws a nonce
  have drawn (finish : Except ApiError Storage.Response → Except ApiError String) :
      CarriesOut (Http draw) Network Serves
        (api.arrive Storage.nonceRequest >>= fun res => ret (finish res))
        (perform ApiRequest.requestNonce) := by
    unfold HttpApi.arrive
    rw [Storage.call_nonceRequest]
    apply carriesOut_ask_silent
    intro db before serves response after served
    have same : (before.requestNonce draw).2 = after := congrArg Prod.snd served
    subst same
    exact ⟨serves, anything _⟩
  apply carriesOut_deliver
  intro delivery
  cases delivery with
  | delivered => exact drawn fun res => res.bind HttpApi.readText
  | requestLost message => exact anything _
  | replyLost message =>
      have failed : api.loseReply Storage.nonceRequest message >>=
          (fun res => ret (res.bind HttpApi.readText)) =
            api.arrive Storage.nonceRequest >>= fun _ => ret (.error (fromReqwest message)) :=
        bind_assoc ..
      change CarriesOut _ _ _ (api.loseReply Storage.nonceRequest message >>= fun res =>
        ret (res.bind HttpApi.readText)) _
      rw [failed]
      exact drawn fun _ => .error (fromReqwest message)

/-- Whatever other requests the server has, an operation of the client is one call. -/
theorem carriesOut_request (agrees : api.signer.Agrees) (nests : lib.Nests)
    (operation : Storage.Operation) (owned : operation.key = api.key)
    (readsBody : ReadsBody read) :
    CarriesOut (Http draw) Network Serves
      ((StorageApiClient.request operation.call read).run.expand api.carryOut)
      (StorageApiClient.request operation.call read).run := by
  refine CarriesOut.bind carriesOut_requestNonce fun answer => ?_
  cases answer with
  | error error => exact carriesOut_ret _
  | ok nonce =>
      have notNonce : operation.call ≠ .requestNonce := by
        cases operation <;> simp [Storage.Operation.call]
      have sent : CarriesOut (Http draw) Network Serves
          (api.sendRequest (operation.request api.signer api.secretKey nonce) >>= fun res =>
            ret (res.bind read))
          (ask (ApiRequest.send nonce operation.call) fun res => ret (res.bind read)) :=
        carriesOut_sendRequest readsBody notNonce
          (Storage.call_request agrees nests api.secretKey operation nonce owned)
      have carried : api.carryOut (.send nonce operation.call) =
          api.sendRequest (operation.request api.signer api.secretKey nonce) := by
        simp only [HttpApi.carryOut, Storage.Operation.ofCall?_call]
      have concluded : (StorageApiClient.send nonce operation.call >>= fun res =>
          ExceptT.mk (pure (read res))).run =
            ask (.send nonce operation.call) fun res => ret (res.bind read) := by
        apply congrArg (ask (ApiRequest.send nonce operation.call))
        funext res
        cases res <;> rfl
      change CarriesOut _ _ _ ((StorageApiClient.send nonce operation.call >>= fun res =>
        ExceptT.mk (pure (read res))).run.expand api.carryOut)
          (StorageApiClient.send nonce operation.call >>= fun res =>
            ExceptT.mk (pure (read res))).run
      rw [concluded]
      change CarriesOut _ _ _ (api.carryOut (.send nonce operation.call) >>= fun res =>
        ret (res.bind read)) _
      rw [carried]
      exact sent

end Requests

end CarriesOut

end Clients

end DlcStack
