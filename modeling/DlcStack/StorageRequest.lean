import DlcStack.StorageHandlers

/-!
# Requests to the storage API

What a request consists of, what `serde` reads from its query and body, and the
route it takes to a handler.  JSON is kept as the tree `serde_json` reads from
the text, with the members of an object in the order written and repetitions
included, since a repeated field is an error for a record and not for a
`Value`.

Functions of other packages are the fields of `Libraries`.
-/

namespace DlcStack

namespace Storage

/-! ## JSON -/

inductive Json where
  | null
  | bool (value : Bool)
  | number (text : String)
  | string (text : String)
  | array (items : List Json)
  | object (members : List (String × Json))

namespace Json

/-- A map with one more member, which replaces a member of the same name. -/
def insertMember (members : List (String × Json)) (member : String × Json) :
    List (String × Json) :=
  members.filter (fun other => other.1 ≠ member.1) ++ [member]

mutual

/-- The `serde_json::Value` read from a text: the last of several members with
one name is kept. -/
def toValue : Json → Json
  | null => null
  | bool value => bool value
  | number text => number text
  | string text => string text
  | array items => array (toValues items)
  | object members => object (toMembers members [])

def toValues : List Json → List Json
  | [] => []
  | item :: items => toValue item :: toValues items

def toMembers : List (String × Json) → List (String × Json) →
    List (String × Json)
  | [], read => read
  | (name, value) :: members, read =>
      toMembers members (insertMember read (name, toValue value))

end

/-- `value[name]`, which is null where there is no such member. -/
def index (value : Json) (name : String) : Json :=
  match value with
  | object members => ((members.find? fun member => member.1 = name).map Prod.snd).getD null
  | _ => null

def asStr : Json → Option String
  | string text => some text
  | _ => none

/-- The fields of a derived record: from an object in which none of them is
repeated, or from an array of all of them in order. -/
def structFields (names : List String) : Json → Option (List (Option Json))
  | object members =>
      if ((members.map Prod.fst).filter fun name => name ∈ names).Nodup then
        some (names.map fun name =>
          (members.find? fun member => member.1 = name).map Prod.snd)
      else none
  | array items =>
      if items.length = names.length then some (items.map some) else none
  | _ => none

/-- A field of type `String`. -/
def stringField (field : Option Json) : Option String :=
  field.bind asStr

/-- A field of type `Option<String>`. -/
def optionField : Option Json → Option (Option String)
  | none => some none
  | some null => some none
  | some (string text) => some (some text)
  | some _ => none

def readNewContract (json : Json) : Option NewContract :=
  match json.structFields ["uuid", "state", "content", "key"] with
  | some [uuid, state, content, key] => do
      return ⟨← stringField uuid, ← stringField state, ← stringField content,
        ← stringField key⟩
  | _ => none

def readUpdateContract (json : Json) : Option UpdateContract :=
  match json.structFields ["uuid", "state", "content", "key"] with
  | some [uuid, state, content, key] => do
      return ⟨← stringField uuid, ← optionField state, ← optionField content,
        ← stringField key⟩
  | _ => none

def readDeleteContract (json : Json) : Option DeleteContract :=
  match json.structFields ["uuid", "key"] with
  | some [uuid, key] => do return ⟨← stringField uuid, ← stringField key⟩
  | _ => none

def readNewEvent (json : Json) : Option NewEvent :=
  match json.structFields ["event_id", "content", "key"] with
  | some [eventId, content, key] => do
      return ⟨← stringField eventId, ← stringField content, ← stringField key⟩
  | _ => none

def readUpdateEvent (json : Json) : Option UpdateEvent :=
  match json.structFields ["event_id", "content", "key"] with
  | some [eventId, content, key] => do
      return ⟨← stringField eventId, ← stringField content, ← stringField key⟩
  | _ => none

def readDeleteEvent (json : Json) : Option DeleteEvent :=
  match json.structFields ["event_id", "key"] with
  | some [eventId, key] => do return ⟨← stringField eventId, ← stringField key⟩
  | _ => none

end Json

/-! ## Queries -/

/-- The decoded pairs of a query string. -/
abbrev Query := List (String × String)

def Query.field (query : Query) (name : String) : Option String :=
  (query.find? fun pair => pair.1 = name).map Prod.snd

/-- The fields of a derived record, none of which may be repeated. -/
def Query.structFields (query : Query) (names : List String) :
    Option (List (Option String)) :=
  if ((query.map Prod.fst).filter fun name => name ∈ names).Nodup then
    some (names.map query.field)
  else none

def Query.readContractRequestParams (query : Query) :
    Option ContractRequestParams :=
  match query.structFields ["key", "uuid", "state"] with
  | some [some key, uuid, state] => some ⟨key, uuid, state⟩
  | _ => none

def Query.readEventRequestParams (query : Query) : Option EventRequestParams :=
  match query.structFields ["key", "event_id"] with
  | some [some key, eventId] => some ⟨key, eventId⟩
  | _ => none

structure AuthenticatedContractQueryParams where
  key : String
  uuid : Option String
  state : Option String
  signature : String

structure AuthenticatedEventQueryParams where
  key : String
  eventId : Option String
  signature : String

def Query.readAuthenticatedContractQueryParams (query : Query) :
    Option AuthenticatedContractQueryParams :=
  match query.structFields ["key", "uuid", "state", "signature"] with
  | some [some key, uuid, state, some signature] =>
      some ⟨key, uuid, state, signature⟩
  | _ => none

def Query.readAuthenticatedEventQueryParams (query : Query) :
    Option AuthenticatedEventQueryParams :=
  match query.structFields ["key", "event_id", "signature"] with
  | some [some key, eventId, some signature] => some ⟨key, eventId, signature⟩
  | _ => none

/-! ## Requests -/

inductive Method where
  | get
  | post
  | put
  | delete
  | other
  deriving DecidableEq, Repr

/-- The value of the `Authorization` header: visible ASCII, or bytes among
which `to_str` finds one that is not. -/
inductive HeaderValue where
  | visible (text : String)
  | obscure (bytes : List UInt8)
  deriving DecidableEq, Repr

/-- `HeaderValue::to_str` -/
def HeaderValue.toStr : HeaderValue → Option String
  | visible text => some text
  | obscure _ => none

/-- `nonce == header` -/
def HeaderValue.equals (nonce : String) : HeaderValue → Bool
  | visible text => nonce = text
  | obscure bytes => nonce.toByteArray.data.toList = bytes

/-- The bytes of a body, by their number and by the JSON they spell, if any. -/
structure Payload where
  length : Nat
  json : Option Json

def Payload.empty : Payload :=
  ⟨0, none⟩

/-- The default limit of the `Bytes` extractor. -/
def bytesLimit : Nat := 262144

/-- The default limit of the `Json` extractor. -/
def jsonLimit : Nat := 2097152

structure Request where
  method : Method
  path : String
  query : Query
  authorization : Option HeaderValue
  jsonContentType : Bool
  payload : Payload

/-- What the code uses of other packages. -/
structure Libraries where
  /-- The percent-decoding of a path before it is matched against the routes. -/
  requote : String → String
  /-- Decoding leaves a path without `%` as it is. -/
  requote_plain : ∀ path, '%' ∉ path.toList → requote path = path
  /-- The percent-decoding of a path segment into a `Path<String>`. -/
  pathSegment : String → String
  /-- `serde_json::Value::to_string` -/
  print : Json → String
  Digest : Type
  Signature : Type
  PublicKey : Type
  sha256 : String → Digest
  signatureFromStr : String → Option Signature
  publicKeyFromStr : String → Option PublicKey
  verifyEcdsa : Digest → Signature → PublicKey → Bool

/-! ## Routes -/

/-- `Json<T>` -/
def Request.extractJson {α : Type} (request : Request)
    (read : Json → Option α) : Option α :=
  if request.jsonContentType ∧ request.payload.length ≤ jsonLimit then
    request.payload.json.bind read
  else none

/-- A response without a call of the handler. -/
def extractionError : Response :=
  ⟨.badRequest, .text "error"⟩

def noRoute : Response :=
  ⟨.notFound, .text ""⟩

/-- The call of a handler with the parameters its extractor returned. -/
def toCall {α : Type} (call : α → Call) : Option α → Except Response Call
  | some params => .ok (call params)
  | none => .error extractionError

/-- The segment that `{ckey}` matches in `route/{ckey}`. -/
def ckeyOf (route path : String) : Option String :=
  let start := route.toList ++ ['/']
  let segment := path.toList.drop start.length
  if start.isPrefixOf path.toList ∧ segment ≠ [] ∧ '/' ∉ segment then
    some (String.ofList segment)
  else none

/-- The handlers behind the middleware, each with its extractors. -/
def dispatch (lib : Libraries) (request : Request) : Except Response Call :=
  let path := lib.requote request.path
  match request.method with
  | .get =>
      if path = "/request_nonce" then .ok .requestNonce
      else if path = "/health" then .ok .getHealth
      else if path = "/contracts" then
        toCall .getContracts request.query.readContractRequestParams
      else if path = "/events" then
        toCall .getEvents request.query.readEventRequestParams
      else .error noRoute
  | .post =>
      if path = "/contracts" then
        toCall .createContract (request.extractJson Json.readNewContract)
      else if path = "/events" then
        toCall .createEvent (request.extractJson Json.readNewEvent)
      else .error noRoute
  | .put =>
      if path = "/contracts" then
        toCall .updateContract (request.extractJson Json.readUpdateContract)
      else if path = "/events" then
        toCall .updateEvent (request.extractJson Json.readUpdateEvent)
      else .error noRoute
  | .delete =>
      if path = "/contract" then
        toCall .deleteContract (request.extractJson Json.readDeleteContract)
      else if path = "/event" then
        toCall .deleteEvent (request.extractJson Json.readDeleteEvent)
      else
        match ckeyOf "/contracts" path, ckeyOf "/events" path with
        | some ckey, _ => .ok (.deleteContracts (lib.pathSegment ckey))
        | none, some ckey => .ok (.deleteEvents (lib.pathSegment ckey))
        | none, none => .error noRoute
  | .other => .error noRoute

/-- The responses that no handler gives. -/
theorem dispatch_error {lib : Libraries} {request : Request}
    {response : Response} (failed : dispatch lib request = .error response) :
    response = extractionError ∨ response = noRoute := by
  have toCall_error {α : Type} {make : α → Call} {params : Option α}
      (failed : toCall make params = .error response) :
      response = extractionError := by
    cases params with
    | none => exact (Except.error.inj failed).symm
    | some params => cases failed
  unfold dispatch at failed
  cases method : request.method <;> simp only [method] at failed
  case get =>
    split_ifs at failed
    · exact .inl (toCall_error failed)
    · exact .inl (toCall_error failed)
    · exact .inr (Except.error.inj failed).symm
  case post =>
    split_ifs at failed
    · exact .inl (toCall_error failed)
    · exact .inl (toCall_error failed)
    · exact .inr (Except.error.inj failed).symm
  case put =>
    split_ifs at failed
    · exact .inl (toCall_error failed)
    · exact .inl (toCall_error failed)
    · exact .inr (Except.error.inj failed).symm
  case delete =>
    split_ifs at failed
    · exact .inl (toCall_error failed)
    · exact .inl (toCall_error failed)
    · split at failed
      · cases failed
      · cases failed
      · exact .inr (Except.error.inj failed).symm
  case other => exact .inr (Except.error.inj failed).symm

end Storage

end DlcStack
