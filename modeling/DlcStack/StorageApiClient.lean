import DlcStack.EffectProgram
import DlcStack.StorageHandlers

/-!
# The client of the storage API

`StorageApiClient` of the `clients` crate: every operation asks for a nonce,
sends one signed request and reads the answer as JSON of the type it expects,
whatever the status.  The network may lose either request before it takes
effect, or lose the reply.
-/

namespace DlcStack

namespace Clients

open Program

structure ApiError where
  message : String
  status : Nat
  deriving DecidableEq, Repr

/-- `Display` -/
def ApiError.toString (error : ApiError) : String :=
  "ApiError: " ++ error.status.repr ++ " - " ++ error.message

/-- The HTTP requests of the client: a nonce, or a call with a nonce. -/
inductive ApiRequest where
  | requestNonce
  | send (nonce : String) (call : Storage.Call)
  deriving DecidableEq

abbrev ApiRequest.Answer : ApiRequest → Type
  | requestNonce => Except ApiError String
  | send _ _ => Except ApiError Storage.Response

abbrev ApiStep := Step Storage.Database ApiRequest ApiRequest.Answer

/-- An operation of the client. -/
abbrev StorageApiClient := ExceptT ApiError (Program ApiRequest ApiRequest.Answer)

namespace StorageApiClient

def requestNonce : StorageApiClient String :=
  ExceptT.mk (perform ApiRequest.requestNonce)

def send (nonce : String) (call : Storage.Call) :
    StorageApiClient Storage.Response :=
  ExceptT.mk (perform (ApiRequest.send nonce call))

/-- Every operation: a nonce, the request, and what is read of the answer. -/
def request {α : Type} (call : Storage.Call)
    (read : Storage.Response → Except ApiError α) : StorageApiClient α := do
  let nonce ← requestNonce
  let res ← send nonce call
  ExceptT.mk (pure (read res))

/-- What `serde` says of an answer of another type. -/
def decodeError : String := "error decoding response body"

def readContract (res : Storage.Response) : Except ApiError Storage.Contract :=
  match res.body with
  | .contract row => .ok row
  | _ => .error ⟨"Create contract failed, response from API not an contract object, error: "
      ++ decodeError, res.status.asNat⟩

def readContracts (res : Storage.Response) :
    Except ApiError (List Storage.Contract) :=
  match res.body with
  | .contracts rows => .ok rows
  | _ => .error ⟨"get contracts failed, response from API not a list of contract objects, error: "
      ++ decodeError, res.status.asNat⟩

def readEvent (res : Storage.Response) : Except ApiError Storage.Event :=
  match res.body with
  | .event row => .ok row
  | _ => .error ⟨"Create event failed, response from API not an event object, error: "
      ++ decodeError, res.status.asNat⟩

def readEvents (res : Storage.Response) : Except ApiError (List Storage.Event) :=
  match res.body with
  | .events rows => .ok rows
  | _ => .error ⟨"get events failed, response from API not a list of event objects, error: "
      ++ decodeError, res.status.asNat⟩

/-- `EffectedNumResponse`, where no effect is an error. -/
def readEffectedNum (failed noEffect : String) (res : Storage.Response) :
    Except ApiError Unit :=
  match res.body with
  | .effectedNum 0 => .error ⟨noEffect, res.status.asNat⟩
  | .effectedNum _ => .ok ()
  | _ => .error ⟨failed ++ " failed, response from API not a number, error: "
      ++ decodeError, res.status.asNat⟩

def getContracts (params : Storage.ContractRequestParams) :
    StorageApiClient (List Storage.Contract) :=
  request (.getContracts params) readContracts

def getContract (key uuid : String) :
    StorageApiClient (Option Storage.Contract) := do
  let contracts ← getContracts ⟨key, some uuid, none⟩
  return contracts.head?

def createContract (contract : Storage.NewContract) :
    StorageApiClient Storage.Contract :=
  request (.createContract contract) readContract

def updateContract (contract : Storage.UpdateContract) : StorageApiClient Unit :=
  request (.updateContract contract)
    (readEffectedNum "Updating contract" "No contract updated")

def deleteContract (contract : Storage.DeleteContract) : StorageApiClient Unit :=
  request (.deleteContract contract)
    (readEffectedNum "Deleting contract" "No contract deleted")

def getEvents (params : Storage.EventRequestParams) :
    StorageApiClient (List Storage.Event) :=
  request (.getEvents params) readEvents

def getEvent (key eventId : String) : StorageApiClient (Option Storage.Event) := do
  let events ← getEvents ⟨key, some eventId⟩
  return events.head?

def createEvent (event : Storage.NewEvent) : StorageApiClient Storage.Event :=
  request (.createEvent event) readEvent

def updateEvent (event : Storage.UpdateEvent) : StorageApiClient Unit :=
  request (.updateEvent event) (readEffectedNum "Updating event" "No event updated")

def deleteEvent (event : Storage.DeleteEvent) : StorageApiClient Unit :=
  request (.deleteEvent event) (readEffectedNum "Deleting event" "No event deleted")

end StorageApiClient

/-- How the storage API is reached: a request may be lost before it takes
effect, and the reply may be lost after.  A request for a nonce does not touch
the database. -/
def Network : Environment Storage.Database ApiRequest ApiRequest.Answer
  | before, .requestNonce, _, after => after = before
  | before, .send _ call, answer, after =>
      (answer = .ok (call.respond before).1 ∧ after = (call.respond before).2) ∨
        (∃ error, answer = .error error) ∧
          (after = before ∨ after = (call.respond before).2)

/-- The steps send no call but this one. -/
def SendsOnly (call : Storage.Call) (steps : List ApiStep) : Prop :=
  ∀ step ∈ steps, ∀ nonce other, step.request = .send nonce other → other = call

namespace StorageApiClient

/-- The rule for an operation over the network: it fails without effect, or it
fails after it took effect, or it takes effect and its answer is read. -/
theorem always_request {α : Type} {call : Storage.Call}
    {read : Storage.Response → Except ApiError α} {db : Storage.Database}
    {past : List ApiStep}
    {post : List ApiStep → Except ApiError α → Storage.Database → Prop}
    (lost : ∀ steps error, SendsOnly call steps →
      (∀ step ∈ steps, step.after = step.before) →
        post (past ++ steps) (.error error) db)
    (replyLost : ∀ steps error, SendsOnly call steps →
      post (past ++ steps) (.error error) (call.respond db).2)
    (delivered : ∀ steps, SendsOnly call steps →
      post (past ++ steps) (read (call.respond db).1) (call.respond db).2) :
    Always Network Eq (fun _ _ => True) post past db (request call read).run := by
  have first (answer : Except ApiError String) :
      SendsOnly call [(⟨db, .requestNonce, answer, db⟩ : ApiStep)] := by
    intro step member nonce other sent
    cases List.mem_singleton.mp member
    cases sent
  have both (nonce : String) (answer : Except ApiError Storage.Response)
      (after : Storage.Database) :
      SendsOnly call ([⟨db, .requestNonce, .ok nonce, db⟩] ++
        [(⟨db, .send nonce call, answer, after⟩ : ApiStep)]) := by
    intro step member nonce' other sent
    rcases List.mem_append.mp member with member | member
    · exact first (.ok nonce) step member nonce' other sent
    · cases List.mem_singleton.mp member
      cases sent
      rfl
  refine (always_run_bind _ _).mpr ((always_ask_alone _ _).mpr ?_)
  intro answer unchanged same
  have same : unchanged = db := same
  subst unchanged
  refine ⟨trivial, ?_⟩
  cases answer with
  | error error =>
      refine lost _ error (first _) fun step member => ?_
      cases List.mem_singleton.mp member
      rfl
  | ok nonce =>
      refine (always_run_bind _ _).mpr ((always_ask_alone _ _).mpr ?_)
      intro answer after answered
      refine ⟨trivial, ?_⟩
      rcases answered with ⟨rfl, rfl⟩ | ⟨⟨error, rfl⟩, rfl | rfl⟩
      · rw [List.append_assoc]
        exact delivered _ (both _ _ _)
      · refine List.append_assoc .. ▸ lost _ error (both _ _ _) fun step member => ?_
        rcases List.mem_append.mp member with member | member <;>
          cases List.mem_singleton.mp member <;> rfl
      · exact List.append_assoc .. ▸ replyLost _ error (both _ _ _)

end StorageApiClient

end Clients

end DlcStack
