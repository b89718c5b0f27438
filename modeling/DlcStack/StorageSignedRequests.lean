import DlcStack.StorageVerifySigs

/-!
# The signed requests of the storage client

The requests that `StorageApiClient` builds for its contract and event
operations, as they arrive at the server.  The six operations with a body sign
the text of a JSON map to which the nonce was added and nest that map in a
second one; the two operations with a query sign the nonce itself.

The middleware accepts these requests and passes the caller's parameters to the
handler, for every body that the `Bytes` extractor reads.
-/

namespace DlcStack

namespace Storage

open Program

/-! ## JSON maps -/

namespace Json

/-- The order of the keys of a map. -/
def precedes (first second : String) : Bool :=
  first.toList.lex second.toList fun one other => one.toNat < other.toNat

/-- A map in the order of its keys with one more member. -/
def insertSorted (member : String × Json) :
    List (String × Json) → List (String × Json)
  | [] => [member]
  | other :: members =>
      if precedes member.1 other.1 then member :: other :: members
      else if member.1 = other.1 then member :: members
      else other :: insertSorted member members

/-- `json!` of a record with these fields: a map in the order of its keys. -/
def ofFields (fields : List (String × Json)) : List (String × Json) :=
  fields.foldr insertSorted []

/-- A serialized `Option<String>`. -/
def ofOption : Option String → Json
  | none => null
  | some text => string text

@[simp]
theorem toValue_string (text : String) : (string text).toValue = string text := by
  rw [toValue]

@[simp]
theorem toValue_ofOption (field : Option String) :
    (ofOption field).toValue = ofOption field := by
  cases field <;> rw [ofOption, toValue]

@[simp]
theorem optionField_ofOption (field : Option String) :
    optionField (some (ofOption field)) = some field := by
  cases field <;> rfl

private theorem toMembers_of_nodup (members read : List (String × Json))
    (distinct : ((read ++ members).map Prod.fst).Nodup)
    (values : ∀ member ∈ members, member.2.toValue = member.2) :
    toMembers members read = read ++ members := by
  induction members generalizing read with
  | nil => rw [toMembers, List.append_nil]
  | cons member members ih =>
      obtain ⟨name, value⟩ := member
      have kept : read.filter (fun other => other.1 ≠ name) = read := by
        refine List.filter_eq_self.mpr fun other otherMem => ?_
        have apart := List.nodup_append.mp (List.map_append ▸ distinct)
        exact decide_eq_true (apart.2.2 _ (List.mem_map_of_mem otherMem) name (by simp))
      have inserted : insertMember read (name, value) = read ++ [(name, value)] := by
        rw [insertMember, kept]
      rw [toMembers, values (name, value) (by simp), inserted, ih]
      · rw [List.append_assoc, List.singleton_append]
      · rw [List.append_assoc, List.singleton_append]
        exact distinct
      · exact fun other otherMem => values other (List.mem_cons_of_mem _ otherMem)

/-- A map without repetitions is read as it is. -/
theorem toValue_object {members : List (String × Json)}
    (distinct : (members.map Prod.fst).Nodup)
    (values : ∀ member ∈ members, member.2.toValue = member.2) :
    (object members).toValue = object members := by
  rw [toValue, toMembers_of_nodup members [] distinct values, List.nil_append]

private theorem find_of_mem {members : List (String × Json)} {member : String × Json}
    (distinct : (members.map Prod.fst).Nodup) (listed : member ∈ members) :
    members.find? (fun other => other.1 = member.1) = some member := by
  induction members with
  | nil => cases listed
  | cons other members ih =>
      rw [List.map_cons, List.nodup_cons] at distinct
      rcases List.mem_cons.mp listed with rfl | listed
      · simp
      · have apart : other.1 ≠ member.1 := fun same =>
          distinct.1 (same ▸ List.mem_map_of_mem listed)
        simp [apart, ih distinct.2 listed]

private theorem find_perm {members members' : List (String × Json)}
    (perm : members.Perm members') (distinct : (members.map Prod.fst).Nodup)
    (name : String) :
    members.find? (fun other => other.1 = name) =
      members'.find? (fun other => other.1 = name) := by
  cases found : members.find? fun other => other.1 = name with
  | none =>
      refine (List.find?_eq_none.mpr fun other otherMem => ?_).symm
      exact List.find?_eq_none.mp found other (perm.mem_iff.mpr otherMem)
  | some member =>
      have same : member.1 = name := by simpa using List.find?_some found
      have listed := perm.mem_iff.mp (List.mem_of_find?_eq_some found)
      subst same
      exact (find_of_mem ((perm.map Prod.fst).nodup_iff.mp distinct) listed).symm

/-- A member of a map without repetitions is found under its name. -/
theorem index_object {members : List (String × Json)} {name : String} {value : Json}
    (distinct : (members.map Prod.fst).Nodup) (listed : (name, value) ∈ members) :
    (object members).index name = value := by
  have found := find_of_mem distinct listed
  simp only [index, found, Option.map_some, Option.getD_some]

/-- The fields of a record do not depend on the order of a map. -/
theorem structFields_perm {members members' : List (String × Json)}
    (perm : members.Perm members') (distinct : (members.map Prod.fst).Nodup)
    (names : List String) :
    structFields names (object members) = structFields names (object members') := by
  have distinct' := (perm.map Prod.fst).nodup_iff.mp distinct
  simp only [structFields, if_pos (distinct.filter _), if_pos (distinct'.filter _),
    find_perm perm distinct]

theorem insertSorted_perm {member : String × Json} {members : List (String × Json)}
    (new : member.1 ∉ members.map Prod.fst) :
    (insertSorted member members).Perm (member :: members) := by
  induction members with
  | nil => exact .refl _
  | cons other members ih =>
      rw [List.map_cons, List.mem_cons, not_or] at new
      unfold insertSorted
      split_ifs with before same
      · exact .refl _
      · exact absurd same new.1
      · exact ((ih new.2).cons other).trans (.swap _ _ _)

theorem ofFields_perm {fields : List (String × Json)}
    (distinct : (fields.map Prod.fst).Nodup) : (ofFields fields).Perm fields := by
  induction fields with
  | nil => exact .refl _
  | cons field fields ih =>
      rw [List.map_cons, List.nodup_cons] at distinct
      have rest := ih distinct.2
      have new : field.1 ∉ (ofFields fields).map Prod.fst := fun member =>
        distinct.1 ((rest.map Prod.fst).mem_iff.mp member)
      exact (insertSorted_perm new).trans (rest.cons field)

/-- A record's fields and the nonce, in the order of a map. -/
theorem insertSorted_ofFields_perm {member : String × Json}
    {fields : List (String × Json)}
    (distinct : ((member :: fields).map Prod.fst).Nodup) :
    (insertSorted member (ofFields fields)).Perm (member :: fields) := by
  rw [List.map_cons, List.nodup_cons] at distinct
  have rest := ofFields_perm distinct.2
  have new : member.1 ∉ (ofFields fields).map Prod.fst := fun named =>
    distinct.1 ((rest.map Prod.fst).mem_iff.mp named)
  exact (insertSorted_perm new).trans (rest.cons member)

/-- A reader that does not depend on the order of a map. -/
def Unordered {α : Type} (read : Json → Option α) : Prop :=
  ∀ members members', members.Perm members' → (members.map Prod.fst).Nodup →
    read (object members) = read (object members')

theorem unordered_readNewContract : Unordered readNewContract := by
  intro members members' perm distinct
  rw [readNewContract, readNewContract, structFields_perm perm distinct]

theorem unordered_readUpdateContract : Unordered readUpdateContract := by
  intro members members' perm distinct
  rw [readUpdateContract, readUpdateContract, structFields_perm perm distinct]

theorem unordered_readDeleteContract : Unordered readDeleteContract := by
  intro members members' perm distinct
  rw [readDeleteContract, readDeleteContract, structFields_perm perm distinct]

theorem unordered_readNewEvent : Unordered readNewEvent := by
  intro members members' perm distinct
  rw [readNewEvent, readNewEvent, structFields_perm perm distinct]

theorem unordered_readUpdateEvent : Unordered readUpdateEvent := by
  intro members members' perm distinct
  rw [readUpdateEvent, readUpdateEvent, structFields_perm perm distinct]

theorem unordered_readDeleteEvent : Unordered readDeleteEvent := by
  intro members members' perm distinct
  rw [readDeleteEvent, readDeleteEvent, structFields_perm perm distinct]

theorem unordered_readAuthenticatedMessage : Unordered readAuthenticatedMessage := by
  intro members members' perm distinct
  rw [readAuthenticatedMessage, readAuthenticatedMessage,
    structFields_perm perm distinct]

end Json

/-- The text of a map is not shorter than the text of a member. -/
def Libraries.Nests (lib : Libraries) : Prop :=
  ∀ (members : List (String × Json)) (name : String) (value : Json),
    (name, value) ∈ members →
      (lib.print value).utf8ByteSize ≤ (lib.print (.object members)).utf8ByteSize

/-! ## Signing -/

/-- What the client uses of the `secp256k1` package. -/
structure Signer (lib : Libraries) where
  SecretKey : Type
  publicKey : SecretKey → lib.PublicKey
  signEcdsa : lib.Digest → SecretKey → lib.Signature
  publicKeyToString : lib.PublicKey → String
  signatureToString : lib.Signature → String

/-- Signatures verify, and signatures and keys parse back from their texts. -/
structure Signer.Agrees {lib : Libraries} (signer : Signer lib) : Prop where
  verified : ∀ digest secretKey,
    lib.verifyEcdsa digest (signer.signEcdsa digest secretKey)
      (signer.publicKey secretKey) = true
  signatureRead : ∀ signature,
    lib.signatureFromStr (signer.signatureToString signature) = some signature
  publicKeyRead : ∀ publicKey,
    lib.publicKeyFromStr (signer.publicKeyToString publicKey) = some publicKey

variable {lib : Libraries}

/-- `sign` -/
def Signer.sign (signer : Signer lib) (secretKey : signer.SecretKey)
    (message : String) : lib.Signature × lib.PublicKey :=
  (signer.signEcdsa (lib.sha256 message) secretKey, signer.publicKey secretKey)

structure SignedMessage where
  message : List (String × Json)
  publicKey : String
  signature : String

/-- `build_signed_message`, with the nonce that the server gave. -/
def Signer.buildSignedMessage (signer : Signer lib) (secretKey : signer.SecretKey)
    (message : List (String × Json)) (nonce : String) : SignedMessage :=
  let message := Json.insertSorted ("nonce", .string nonce) message
  let (sig, pubKey) := signer.sign secretKey (lib.print (.object message))
  ⟨message, signer.publicKeyToString pubKey, signer.signatureToString sig⟩

/-- `json!(message_body)` -/
def SignedMessage.toJson (body : SignedMessage) : Json :=
  .object (Json.ofFields
    [("message", .object body.message), ("public_key", .string body.publicKey),
      ("signature", .string body.signature)])

theorem verifies_sign {signer : Signer lib} (agrees : signer.Agrees)
    (secretKey : signer.SecretKey) (text : String) :
    verifies lib (signer.signatureToString (signer.sign secretKey text).1)
      (signer.publicKeyToString (signer.publicKey secretKey)) text = true := by
  simp only [verifies, Signer.sign, agrees.signatureRead, agrees.publicKeyRead,
    agrees.verified]

/-! ## The operations -/

/-- The contract and event operations of the client that send one request. -/
inductive Operation where
  | getContracts (contractReq : ContractRequestParams)
  | getEvents (eventReq : EventRequestParams)
  | createContract (contract : NewContract)
  | createEvent (event : NewEvent)
  | updateEvent (event : UpdateEvent)
  | updateContract (contract : UpdateContract)
  | deleteEvent (event : DeleteEvent)
  | deleteContract (contract : DeleteContract)

namespace Operation

/-- The key among the caller's parameters. -/
def key : Operation → String
  | getContracts contractReq => contractReq.key
  | getEvents eventReq => eventReq.key
  | createContract contract => contract.key
  | createEvent event => event.key
  | updateEvent event => event.key
  | updateContract contract => contract.key
  | deleteEvent event => event.key
  | deleteContract contract => contract.key

/-- The handler that the operation is for, with the caller's parameters. -/
def call : Operation → Call
  | getContracts contractReq => .getContracts contractReq
  | getEvents eventReq => .getEvents eventReq
  | createContract contract => .createContract contract
  | createEvent event => .createEvent event
  | updateEvent event => .updateEvent event
  | updateContract contract => .updateContract contract
  | deleteEvent event => .deleteEvent event
  | deleteContract contract => .deleteContract contract

end Operation

/-- A field of a query that is skipped when there is none. -/
def optionalPair (name : String) : Option String → Query
  | none => []
  | some value => [(name, value)]

namespace Signer

variable (signer : Signer lib) (secretKey : signer.SecretKey)

/-- A request with signed query parameters. -/
def sendQuery (path : String) (query : Query) (nonce : String) : Request :=
  ⟨.get, path, query, some (.visible nonce), false, .empty⟩

/-- A request with a signed message as its body. -/
def sendMessage (method : Method) (path : String) (message : List (String × Json))
    (nonce : String) : Request :=
  let body := (signer.buildSignedMessage secretKey message nonce).toJson
  ⟨method, path, [], some (.visible nonce), true,
    ⟨(lib.print body).utf8ByteSize, some body⟩⟩

/-- `get_contracts`: `query(&json!(params))` puts the fields in order. -/
def getContracts (contractReq : ContractRequestParams) (nonce : String) : Request :=
  sendQuery "/contracts"
    ([("key", contractReq.key),
        ("signature", signer.signatureToString (signer.sign secretKey nonce).1)] ++
      optionalPair "state" contractReq.state ++
      optionalPair "uuid" contractReq.uuid) nonce

/-- `get_events`: `query(&params)` leaves the fields as they are declared. -/
def getEvents (eventReq : EventRequestParams) (nonce : String) : Request :=
  sendQuery "/events"
    ([("key", eventReq.key)] ++ optionalPair "event_id" eventReq.eventId ++
      [("signature", signer.signatureToString (signer.sign secretKey nonce).1)]) nonce

def createContract (contract : NewContract) : String → Request :=
  signer.sendMessage secretKey .post "/contracts" (Json.ofFields
    [("uuid", .string contract.uuid), ("state", .string contract.state),
      ("content", .string contract.content), ("key", .string contract.key)])

def createEvent (event : NewEvent) : String → Request :=
  signer.sendMessage secretKey .post "/events" (Json.ofFields
    [("event_id", .string event.eventId), ("content", .string event.content),
      ("key", .string event.key)])

def updateEvent (event : UpdateEvent) : String → Request :=
  signer.sendMessage secretKey .put "/events" (Json.ofFields
    [("event_id", .string event.eventId), ("content", .string event.content),
      ("key", .string event.key)])

def updateContract (contract : UpdateContract) : String → Request :=
  signer.sendMessage secretKey .put "/contracts" (Json.ofFields
    [("uuid", .string contract.uuid), ("state", Json.ofOption contract.state),
      ("content", Json.ofOption contract.content), ("key", .string contract.key)])

def deleteEvent (event : DeleteEvent) : String → Request :=
  signer.sendMessage secretKey .delete "/event" (Json.ofFields
    [("key", .string event.key), ("event_id", .string event.eventId)])

def deleteContract (contract : DeleteContract) : String → Request :=
  signer.sendMessage secretKey .delete "/contract" (Json.ofFields
    [("key", .string contract.key), ("uuid", .string contract.uuid)])

end Signer

/-- The request that an operation sends with the nonce it fetched. -/
def Operation.request (signer : Signer lib) (secretKey : signer.SecretKey)
    (nonce : String) : Operation → Request
  | getContracts contractReq => signer.getContracts secretKey contractReq nonce
  | getEvents eventReq => signer.getEvents secretKey eventReq nonce
  | createContract contract => signer.createContract secretKey contract nonce
  | createEvent event => signer.createEvent secretKey event nonce
  | updateEvent event => signer.updateEvent secretKey event nonce
  | updateContract contract => signer.updateContract secretKey contract nonce
  | deleteEvent event => signer.deleteEvent secretKey event nonce
  | deleteContract contract => signer.deleteContract secretKey contract nonce

/-! ## The middleware on these requests -/

/-- The server while the nonce of a request is listed at its arrival, where the
middleware copies the nonces. -/
def Listed (draw : Nat → String) (nonce : String) :
    Environment Server Effect Effect.Answer
  | before, effect, answer, after =>
      (Server.answer draw).env before effect answer after ∧
        (effect = .copyNonces → nonce ∈ before.nonces)

/-- The outcomes of the verifications. -/
def verdicts (steps : List (Step Server Effect Effect.Answer)) : List Bool :=
  steps.filterMap fun step =>
    match step.request with
    | .verification accepted => some accepted
    | _ => none

/-- The calls that a handler received, each with its response. -/
def handled (steps : List (Step Server Effect Effect.Answer)) :
    List (Call × Response) :=
  steps.filterMap fun step =>
    match step with
    | ⟨_, .handle call, response, _⟩ => some (call, response)
    | _ => none

/-- The request is accepted, the handler receives the call and nothing else, and
its response is passed on. -/
structure PassedOn (call : Call) (steps : List (Step Server Effect Effect.Answer))
    (response : Option Response) : Prop where
  verdicts : verdicts steps = [true]
  handled : ∃ answer, handled steps = [(call, answer)] ∧ response = some answer

@[simp]
theorem verdicts_append (front back : List (Step Server Effect Effect.Answer)) :
    verdicts (front ++ back) = verdicts front ++ verdicts back :=
  List.filterMap_append

@[simp]
theorem handled_append (front back : List (Step Server Effect Effect.Answer)) :
    handled (front ++ back) = handled front ++ handled back :=
  List.filterMap_append

/-- The inner service hands a request to the handler its route leads to. -/
theorem always_service_dispatched {draw : Nat → String} {nonce : String} {request : Request}
    {header : HeaderValue} {call : Call}
    (authorized : request.authorization = some header)
    (dispatched : dispatch lib request = .ok call)
    (past : List (Step Server Effect Effect.Answer)) (server : Server) :
    Always (Listed draw nonce) (fun _ _ => True) (fun _ _ => True)
      (fun steps response _ => verdicts steps = verdicts past ∧
        handled steps = handled past ++ [(call, response)])
      past server (service lib request) := by
  unfold service
  rw [authorized, dispatched]
  intro _ _ _ _ _
  refine ⟨trivial, ?_⟩
  intro _ _ response _ _
  refine ⟨trivial, ?_⟩
  simp [Always, verdicts, handled]

section Middleware

variable {request : Request} {nonce : String}
  (guarded : request.path ∉ unprotectedPaths)
  (authorized : request.authorization = some (.visible nonce))

include guarded authorized

theorem call_eq_checkQuery {params : Option (String × String)}
    (checked : request.queryToCheck = some params) :
    Storage.call lib request =
      perform Effect.copyNonces >>= fun nonces => checkQuery lib nonces nonce request params := by
  unfold Storage.call
  simp only [if_neg guarded, authorized, HeaderValue.toStr, checked]

theorem call_eq_checkBody (noQuery : request.queryToCheck = none) :
    Storage.call lib request =
      perform Effect.copyNonces >>= fun nonces => checkBody lib nonces nonce request := by
  unfold Storage.call
  simp only [if_neg guarded, authorized, HeaderValue.toStr, noQuery]

end Middleware

/-- The branch of a verified message. -/
theorem checkBody_eq_service {request : Request} {nonces : List String} {nonce : String}
    {body : AuthenticatedMessage} (fits : request.payload.length ≤ bytesLimit)
    (authenticated : request.authenticatedMessage = some body)
    (named : (body.message.index "nonce").asStr = some nonce)
    (verified : verifyBody lib body = true) (listed : nonce ∈ nonces) :
    checkBody lib nonces nonce request = (do
      perform Effect.extract
      perform (Effect.verification true)
      let response ← service lib (request.carrying lib body.message)
      return some response) := by
  have accepted :
      (verifyBody lib body && nonces.contains nonce && decide (nonce = nonce)) = true := by
    simp [verified, listed]
  unfold checkBody
  rw [if_neg (not_lt.mpr fits), authenticated]
  dsimp only
  rw [named]
  dsimp only
  rw [accepted]
  rfl

theorem readAuthenticatedMessage_toJson {body : SignedMessage}
    (distinct : (body.message.map Prod.fst).Nodup)
    (values : ∀ member ∈ body.message, member.2.toValue = member.2) :
    body.toJson.readAuthenticatedMessage =
      some ⟨.object body.message, body.publicKey, body.signature⟩ := by
  have distinctBody : ([("message", Json.object body.message),
      ("public_key", .string body.publicKey),
      ("signature", .string body.signature)].map Prod.fst).Nodup := by simp
  have sorted := Json.ofFields_perm distinctBody
  rw [SignedMessage.toJson, Json.unordered_readAuthenticatedMessage _ _ sorted
    ((sorted.map Prod.fst).nodup_iff.mpr distinctBody)]
  have message := Json.toValue_object distinct values
  simp [Json.readAuthenticatedMessage, Json.structFields, Json.stringField,
    Json.asStr, message]

/-- A signed message is not longer than the body it is nested in. -/
theorem print_message_le (nests : lib.Nests) (body : SignedMessage) :
    (lib.print (.object body.message)).utf8ByteSize ≤
      (lib.print body.toJson).utf8ByteSize := by
  refine nests _ "message" _ ?_
  exact (Json.ofFields_perm (by simp)).mem_iff.mpr (List.mem_cons_self ..)

/-- What the middleware does with a signed message whose route leads to a call. -/
theorem passedOn_sendMessage {signer : Signer lib} (agrees : signer.Agrees)
    (nests : lib.Nests) (draw : Nat → String) (secretKey : signer.SecretKey)
    {method : Method} {path nonce : String} {fields : List (String × Json)}
    {α : Type} {read : Json → Option α} {params : α} {make : α → Call}
    (notGet : method ≠ .get) (guarded : path ∉ unprotectedPaths)
    (distinct : ("nonce" :: fields.map Prod.fst).Nodup)
    (values : ∀ field ∈ fields, field.2.toValue = field.2)
    (routed : ∀ payload : Payload,
      let request : Request :=
        ⟨method, path, [], some (.visible nonce), true, payload⟩
      dispatch lib request = toCall make (request.extractJson read))
    (unordered : Json.Unordered read)
    (reads : read (.object (("nonce", .string nonce) :: fields)) = some params)
    (fits : (signer.sendMessage secretKey method path (Json.ofFields fields)
      nonce).payload.length ≤ bytesLimit) (server : Server) :
    Always (Listed draw nonce) (fun _ _ => True) (fun _ _ => True)
      (fun steps response _ => PassedOn (make params) steps response) [] server
      (Storage.call lib
        (signer.sendMessage secretKey method path (Json.ofFields fields) nonce)) := by
  let body := signer.buildSignedMessage secretKey (Json.ofFields fields) nonce
  let request := signer.sendMessage secretKey method path (Json.ofFields fields) nonce
  have reordered : body.message.Perm (("nonce", .string nonce) :: fields) :=
    Json.insertSorted_ofFields_perm distinct
  have distinctMessage : (body.message.map Prod.fst).Nodup :=
    (reordered.map Prod.fst).nodup_iff.mpr distinct
  have authenticated : request.authenticatedMessage =
      some ⟨.object body.message, body.publicKey, body.signature⟩ := by
    refine readAuthenticatedMessage_toJson distinctMessage fun member memberMem => ?_
    rcases List.mem_cons.mp (reordered.mem_iff.mp memberMem) with rfl | field
    · exact Json.toValue_string nonce
    · exact values member field
  have named : (Json.object body.message).index "nonce" = .string nonce :=
    Json.index_object distinctMessage (reordered.mem_iff.mpr (List.mem_cons_self ..))
  have verified : verifyBody lib
      ⟨.object body.message, body.publicKey, body.signature⟩ = true :=
    verifies_sign agrees secretKey _
  have carried : (lib.print (.object body.message)).utf8ByteSize ≤ jsonLimit := by
    exact le_trans (le_trans (print_message_le nests body) fits) (by decide)
  have dispatched : dispatch lib (request.carrying lib (.object body.message)) =
      .ok (make params) := by
    refine (routed ⟨_, some (.object body.message)⟩).trans ?_
    rw [Request.extractJson, if_pos ⟨rfl, carried⟩, Option.bind_some,
      unordered _ _ reordered distinctMessage, reads]
    rfl
  have noQuery : request.queryToCheck = none := by
    simp [request, Request.queryToCheck, Signer.sendMessage, notGet]
  rw [@call_eq_checkBody lib request nonce guarded rfl noQuery]
  intro before _ nonces after served
  refine ⟨trivial, ?_⟩
  obtain ⟨⟨⟩, listed⟩ := served
  change Always _ _ _ _ _ _ (checkBody lib before.nonces nonce request)
  rw [checkBody_eq_service fits authenticated (by rw [named, Json.asStr]) verified
    (listed rfl)]
  intro _ _ _ _ _
  refine ⟨trivial, ?_⟩
  intro _ _ _ _ _
  refine ⟨trivial, ?_⟩
  change Always _ _ _ _ _ _ (service lib _ >>= _)
  rw [always_bind]
  refine (always_service_dispatched rfl dispatched _ _).post_mono ?_
  rintro steps response final ⟨verdictsEq, handledEq⟩
  refine ⟨?_, response, ?_, rfl⟩
  · rw [verdictsEq]
    rfl
  · rw [handledEq]
    rfl

/-- What the middleware does with a signed query whose route leads to a call. -/
theorem passedOn_sendQuery {signer : Signer lib} (agrees : signer.Agrees)
    (draw : Nat → String) (secretKey : signer.SecretKey) {path nonce : String}
    {query : Query} {call : Call} (guarded : path ∉ unprotectedPaths)
    (checked : (Signer.sendQuery path query nonce).queryToCheck =
      some (some (signer.signatureToString (signer.sign secretKey nonce).1,
        signer.publicKeyToString (signer.publicKey secretKey))))
    (dispatched : dispatch lib (Signer.sendQuery path query nonce) = .ok call)
    (server : Server) :
    Always (Listed draw nonce) (fun _ _ => True) (fun _ _ => True)
      (fun steps response _ => PassedOn call steps response) [] server
      (Storage.call lib (Signer.sendQuery path query nonce)) := by
  have verified := verifies_sign agrees secretKey nonce
  rw [call_eq_checkQuery guarded rfl checked]
  intro before _ nonces after served
  refine ⟨trivial, ?_⟩
  obtain ⟨⟨⟩, listed⟩ := served
  intro _ _ _ _ _
  refine ⟨trivial, ?_⟩
  change Always _ _ _ _ _ _ (service lib _ >>= _)
  rw [always_bind]
  refine (always_service_dispatched rfl dispatched _ _).post_mono ?_
  rintro steps response final ⟨verdictsEq, handledEq⟩
  have accepted : (verifyQueryParams lib
      (signer.signatureToString (signer.sign secretKey nonce).1)
      (signer.publicKeyToString (signer.publicKey secretKey)) nonce &&
        before.nonces.contains nonce) = true := by
    simp [verifyQueryParams, verified, listed rfl]
  dsimp only
  rw [accepted]
  intro _ _ _ _ _
  refine ⟨trivial, ?_, response, ?_, rfl⟩
  · rw [verdicts_append, verdictsEq]
    rfl
  · rw [handled_append, handledEq]
    rfl

/-- The query of a signed request for contracts is read twice: with the
signature by the middleware, and without it by the handler's extractor. -/
theorem read_contractsQuery (key signature : String) (uuid state : Option String) :
    let query : Query := [("key", key), ("signature", signature)] ++
      optionalPair "state" state ++ optionalPair "uuid" uuid
    query.readAuthenticatedContractQueryParams = some ⟨key, uuid, state, signature⟩ ∧
      query.readContractRequestParams = some ⟨key, uuid, state⟩ := by
  cases uuid <;> cases state <;> constructor <;> rfl

theorem read_eventsQuery (key signature : String) (eventId : Option String) :
    let query : Query := [("key", key)] ++ optionalPair "event_id" eventId ++
      [("signature", signature)]
    query.readAuthenticatedEventQueryParams = some ⟨key, eventId, signature⟩ ∧
      query.readEventRequestParams = some ⟨key, eventId⟩ := by
  cases eventId <;> constructor <;> rfl

theorem queryToCheck_contracts (query : Query) (nonce : String) :
    (Signer.sendQuery "/contracts" query nonce).queryToCheck =
      some (query.readAuthenticatedContractQueryParams.map fun params =>
        (params.signature, params.key)) := by
  have noEvent : containsStr "/contracts" "/event" = false := by decide
  have isContract : containsStr "/contracts" "/contract" = true := by decide
  simp [Request.queryToCheck, Signer.sendQuery, noEvent, isContract]

theorem queryToCheck_events (query : Query) (nonce : String) :
    (Signer.sendQuery "/events" query nonce).queryToCheck =
      some (query.readAuthenticatedEventQueryParams.map fun params =>
        (params.signature, params.key)) := by
  have isEvent : containsStr "/events" "/event" = true := by decide
  simp [Request.queryToCheck, Signer.sendQuery, isEvent]

/-- The middleware accepts every operation's request with a listed nonce and a
body that the extractor reads, and the handler receives the caller's
parameters, whatever other requests do in between. -/
theorem call_passedOn {signer : Signer lib} (agrees : signer.Agrees)
    (nests : lib.Nests) (draw : Nat → String) (secretKey : signer.SecretKey)
    (operation : Operation) (nonce : String) (server : Server)
    (owned : operation.key = signer.publicKeyToString (signer.publicKey secretKey))
    (fits : (operation.request signer secretKey nonce).payload.length ≤ bytesLimit) :
    Always (Listed draw nonce) (fun _ _ => True) (fun _ _ => True)
      (fun steps response _ => PassedOn operation.call steps response) [] server
      (call lib (operation.request signer secretKey nonce)) := by
  have contracts : lib.requote "/contracts" = "/contracts" :=
    lib.requote_plain _ (by decide)
  have events : lib.requote "/events" = "/events" :=
    lib.requote_plain _ (by decide)
  have contract : lib.requote "/contract" = "/contract" :=
    lib.requote_plain _ (by decide)
  have event : lib.requote "/event" = "/event" :=
    lib.requote_plain _ (by decide)
  cases operation with
  | getContracts contractReq =>
      obtain ⟨key, uuid, state⟩ := contractReq
      obtain rfl : key = _ := owned
      have read := read_contractsQuery
        (signer.publicKeyToString (signer.publicKey secretKey))
        (signer.signatureToString (signer.sign secretKey nonce).1) uuid state
      apply passedOn_sendQuery agrees draw secretKey
      · decide
      · rw [queryToCheck_contracts, read.1]
        rfl
      · simp only [dispatch, Signer.sendQuery, contracts]
        rw [read.2]
        rfl
  | getEvents eventReq =>
      obtain ⟨key, eventId⟩ := eventReq
      obtain rfl : key = _ := owned
      have read := read_eventsQuery
        (signer.publicKeyToString (signer.publicKey secretKey))
        (signer.signatureToString (signer.sign secretKey nonce).1) eventId
      apply passedOn_sendQuery agrees draw secretKey
      · decide
      · rw [queryToCheck_events, read.1]
        rfl
      · simp only [dispatch, Signer.sendQuery, events]
        rw [read.2]
        rfl
  | createContract newContract =>
      refine passedOn_sendMessage agrees nests draw secretKey (by decide) (by decide)
        (by simp) (by simp) ?_ Json.unordered_readNewContract ?_ fits server
      · simp [dispatch, contracts]
      · simp [Json.readNewContract, Json.structFields, Json.stringField, Json.asStr]
  | createEvent newEvent =>
      refine passedOn_sendMessage agrees nests draw secretKey (by decide) (by decide)
        (by simp) (by simp) ?_ Json.unordered_readNewEvent ?_ fits server
      · simp [dispatch, events]
      · simp [Json.readNewEvent, Json.structFields, Json.stringField, Json.asStr]
  | updateEvent update =>
      refine passedOn_sendMessage agrees nests draw secretKey (by decide) (by decide)
        (by simp) (by simp) ?_ Json.unordered_readUpdateEvent ?_ fits server
      · simp [dispatch, events]
      · simp [Json.readUpdateEvent, Json.structFields, Json.stringField, Json.asStr]
  | updateContract update =>
      refine passedOn_sendMessage agrees nests draw secretKey (by decide) (by decide)
        (by simp) (by simp) ?_ Json.unordered_readUpdateContract ?_ fits server
      · simp [dispatch, contracts]
      · simp [Json.readUpdateContract, Json.structFields, Json.stringField, Json.asStr]
  | deleteEvent deleted =>
      refine passedOn_sendMessage agrees nests draw secretKey (by decide) (by decide)
        (by simp) (by simp) ?_ Json.unordered_readDeleteEvent ?_ fits server
      · simp [dispatch, event]
      · simp [Json.readDeleteEvent, Json.structFields, Json.stringField, Json.asStr]
  | deleteContract deleted =>
      refine passedOn_sendMessage agrees nests draw secretKey (by decide) (by decide)
        (by simp) (by simp) ?_ Json.unordered_readDeleteContract ?_ fits server
      · simp [dispatch, contract]
      · simp [Json.readDeleteContract, Json.structFields, Json.stringField, Json.asStr]

/-- A longer body is not extracted, and the request has no response. -/
theorem not_passedOn_overlong (signer : Signer lib) (draw : Nat → String)
    (secretKey : signer.SecretKey) {method : Method} {path nonce : String}
    {message : List (String × Json)} {call : Call} {server : Server}
    (notGet : method ≠ .get) (guarded : path ∉ unprotectedPaths)
    (overlong : bytesLimit <
      (signer.sendMessage secretKey method path message nonce).payload.length)
    (listed : nonce ∈ server.nonces) :
    ¬ Always (Listed draw nonce) (fun _ _ => True) (fun _ _ => True)
      (fun steps response _ => PassedOn call steps response) [] server
      (Storage.call lib
        (signer.sendMessage secretKey method path message nonce)) := by
  intro always
  let request := signer.sendMessage secretKey method path message nonce
  have noQuery : request.queryToCheck = none := by
    simp [request, Request.queryToCheck, Signer.sendMessage, notGet]
  rw [@call_eq_checkBody lib request nonce guarded rfl noQuery] at always
  have copied := (always server trivial server.nonces server ⟨rfl, fun _ => listed⟩).2
  have extracted := (copied server trivial () server ⟨rfl, by simp⟩).2
  rw [if_pos overlong] at extracted
  obtain ⟨answer, -, responded⟩ := extracted.handled
  cases responded

/-! ## Signatures as terms -/

/-- A public key spells out its secret key. -/
def Signer.symbolic : Signer Libraries.symbolic where
  SecretKey := String
  publicKey := fun secretKey => "public " ++ secretKey
  signEcdsa := fun (digest : String) secretKey =>
    "public " ++ secretKey ++ ":" ++ digest
  publicKeyToString := id
  signatureToString := id

theorem Signer.symbolic_agrees : Signer.symbolic.Agrees where
  verified := by
    intro digest secretKey
    simp [Signer.symbolic, Libraries.symbolic]
  signatureRead := fun _ => rfl
  publicKeyRead := fun _ => rfl

private theorem utf8ByteSize_le_intercalate {text : String} {texts : List String}
    (member : text ∈ texts) :
    text.utf8ByteSize ≤ (",".intercalate texts).utf8ByteSize := by
  induction texts with
  | nil => cases member
  | cons first texts ih =>
      cases texts with
      | nil => simp [List.mem_singleton.mp member]
      | cons second texts =>
          rw [String.intercalate_cons_cons, String.utf8ByteSize_append,
            String.utf8ByteSize_append]
          rcases List.mem_cons.mp member with rfl | member
          · omega
          · have shorter := ih member
            omega

private theorem memberText_mem {members : List (String × Json)} {name : String}
    {value : Json} (member : (name, value) ∈ members) :
    "\"" ++ name ++ "\":" ++ value.text ∈ Json.memberTexts members := by
  induction members with
  | nil => cases member
  | cons other members ih =>
      rw [Json.memberTexts]
      rcases List.mem_cons.mp member with rfl | member
      · exact List.mem_cons_self ..
      · exact List.mem_cons_of_mem _ (ih member)

theorem Libraries.symbolic_nests : Libraries.symbolic.Nests := by
  intro members name value member
  have inside := utf8ByteSize_le_intercalate (memberText_mem member)
  change value.text.utf8ByteSize ≤ (Json.object members).text.utf8ByteSize
  rw [Json.text]
  simp only [String.utf8ByteSize_append] at inside ⊢
  omega

/-- An update that leaves the content as it is. -/
def sampleUpdate : Operation :=
  .updateContract ⟨"uuid", some "confirmed", none, "public alice"⟩

theorem call_passedOn_sampleUpdate :
    Always (Listed (fun _ => "nonce") "nonce") (fun _ _ => True) (fun _ _ => True)
      (fun steps response _ => PassedOn sampleUpdate.call steps response) []
      ⟨["nonce"], 1, Database.empty⟩
      (call .symbolic (sampleUpdate.request .symbolic "alice" "nonce")) :=
  call_passedOn Signer.symbolic_agrees Libraries.symbolic_nests _ "alice"
    sampleUpdate "nonce" _ (by decide) (by decide +kernel)

/-- The body of a new contract is longer than the contract's content. -/
theorem createContract_overlong (secretKey : String) (contract : NewContract)
    (nonce : String) (long : bytesLimit < contract.content.utf8ByteSize) :
    bytesLimit <
      (Signer.symbolic.createContract secretKey contract nonce).payload.length := by
  have content : bytesLimit < (Json.string contract.content).text.utf8ByteSize := by
    simp only [Json.text, String.utf8ByteSize_append]
    omega
  let fields : List (String × Json) :=
    [("uuid", .string contract.uuid), ("state", .string contract.state),
      ("content", .string contract.content), ("key", .string contract.key)]
  have member : ("content", Json.string contract.content) ∈
      Json.insertSorted ("nonce", .string nonce) (Json.ofFields fields) :=
    (Json.insertSorted_ofFields_perm (by simp [fields])).mem_iff.mpr
      (by simp [fields])
  have message := content.trans_le (Libraries.symbolic_nests _ _ _ member)
  have body := print_message_le Libraries.symbolic_nests
    (Signer.symbolic.buildSignedMessage secretKey (Json.ofFields fields) nonce)
  exact message.trans_le body

/-- A text of this many characters. -/
def longText : Nat → String
  | 0 => ""
  | length + 1 => (longText length).push 'a'

theorem utf8ByteSize_longText (length : Nat) :
    (longText length).utf8ByteSize = length := by
  induction length with
  | zero => rfl
  | succ length ih => rw [longText, String.utf8ByteSize_push, ih]; rfl

/-- A new contract whose content alone is longer than the extractor's limit. -/
def longContract : NewContract :=
  ⟨"uuid", "offered", longText (bytesLimit + 1), "public alice"⟩

/-- A signed request with a listed nonce gets no response if its body is too long. -/
theorem not_call_passedOn :
    ¬ ∀ (lib : Libraries) (signer : Signer lib), signer.Agrees → lib.Nests →
      ∀ (draw : Nat → String) (secretKey : signer.SecretKey)
        (operation : Operation) (nonce : String) (server : Server),
        operation.key = signer.publicKeyToString (signer.publicKey secretKey) →
          Always (Listed draw nonce) (fun _ _ => True) (fun _ _ => True)
            (fun steps response _ => PassedOn operation.call steps response)
            [] server (call lib (operation.request signer secretKey nonce)) := by
  intro claimed
  have always := claimed .symbolic .symbolic Signer.symbolic_agrees
    Libraries.symbolic_nests (fun _ => "nonce") "alice"
    (.createContract longContract) "nonce" ⟨["nonce"], 1, Database.empty⟩ rfl
  have long : bytesLimit < longContract.content.utf8ByteSize := by
    simp only [longContract, utf8ByteSize_longText]
    omega
  exact not_passedOn_overlong Signer.symbolic _ "alice" (by decide) (by decide)
    (createContract_overlong "alice" longContract "nonce" long) (by simp) always

end Storage

end DlcStack
