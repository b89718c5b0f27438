import DlcStack.StorageDatabase

/-!
# The handlers of the storage API

The twelve handlers of `storage/api`, each on the parameters its extractors
hand it.  A `Call` is a handler together with these parameters.  The two calls
that do not use the database are answered by the server.

For each call this file says which owner's key its row filter names, whose rows
it writes, and when it finds nothing to return or to change.
-/

namespace DlcStack

namespace Storage

inductive StatusCode where
  | ok
  | badRequest
  | forbidden
  | notFound
  deriving DecidableEq, Repr

def StatusCode.isSuccess : StatusCode → Bool
  | .ok => true
  | _ => false

def StatusCode.asNat : StatusCode → Nat
  | .ok => 200
  | .badRequest => 400
  | .forbidden => 403
  | .notFound => 404

/-- A response body: JSON of one of the types the handlers return, or text. -/
inductive Body where
  | contracts (rows : List Contract)
  | contract (row : Contract)
  | events (rows : List Event)
  | event (row : Event)
  | effectedNum (effectedNum : Nat)
  | text (text : String)
  deriving DecidableEq, Repr

structure Response where
  status : StatusCode
  body : Body
  deriving DecidableEq, Repr

/-- The contracts rows in a body. -/
def Body.contractRows : Body → List Contract
  | .contracts rows => rows
  | .contract row => [row]
  | _ => []

/-- The events rows in a body. -/
def Body.eventRows : Body → List Event
  | .events rows => rows
  | .event row => [row]
  | _ => []

/-- The owners' keys of the rows in a body. -/
def Body.owners (body : Body) : List String :=
  body.contractRows.map Contract.key ++ body.eventRows.map Event.key

/-- A handler with its extracted parameters. -/
inductive Call where
  | getHealth
  | requestNonce
  | getContracts (params : ContractRequestParams)
  | createContract (contract : NewContract)
  | updateContract (contract : UpdateContract)
  | deleteContract (contract : DeleteContract)
  | deleteContracts (ckey : String)
  | getEvents (params : EventRequestParams)
  | createEvent (event : NewEvent)
  | updateEvent (event : UpdateEvent)
  | deleteEvent (event : DeleteEvent)
  | deleteEvents (ckey : String)
  deriving DecidableEq, Repr

namespace Handlers

/-- `match num { 0 => NotFound, _ => Ok }` -/
def effected (absent : String) : Nat → Response
  | 0 => ⟨.notFound, .text absent⟩
  | num => ⟨.ok, .effectedNum num⟩

def getContracts (db : Database) (params : ContractRequestParams) :
    Response × Database :=
  (⟨.ok, .contracts (db.getContracts params)⟩, db)

def createContract (db : Database) (contract : NewContract) :
    Response × Database :=
  match db.createContract contract with
  | (.ok row, db) => (⟨.ok, .contract row⟩, db)
  | (.error error, db) => (⟨.badRequest, .text error.toString⟩, db)

def updateContract (db : Database) (contract : UpdateContract) :
    Response × Database :=
  let (numUpdated, db) := db.updateContract contract
  (effected "No contract found" numUpdated, db)

def deleteContract (db : Database) (contract : DeleteContract) :
    Response × Database :=
  let (numDeleted, db) := db.deleteContract contract
  (effected "No contract found" numDeleted, db)

def deleteContracts (db : Database) (ckey : String) : Response × Database :=
  let (numDeleted, db) := db.deleteAllContracts ckey
  (⟨.ok, .effectedNum numDeleted⟩, db)

def getEvents (db : Database) (params : EventRequestParams) :
    Response × Database :=
  (⟨.ok, .events (db.getEvents params)⟩, db)

def createEvent (db : Database) (event : NewEvent) : Response × Database :=
  match db.createEvent event with
  | (.ok row, db) => (⟨.ok, .event row⟩, db)
  | (.error error, db) => (⟨.badRequest, .text error.toString⟩, db)

def updateEvent (db : Database) (event : UpdateEvent) : Response × Database :=
  let (numUpdated, db) := db.updateEvent event
  (effected "No event found" numUpdated, db)

def deleteEvent (db : Database) (event : DeleteEvent) : Response × Database :=
  let (numDeleted, db) := db.deleteEvent event
  (effected "No event found" numDeleted, db)

def deleteEvents (db : Database) (ckey : String) : Response × Database :=
  let (numDeleted, db) := db.deleteAllEvents ckey
  (⟨.ok, .effectedNum numDeleted⟩, db)

end Handlers

namespace Call

/-- What a handler answers and leaves in the database. -/
def respond (db : Database) : Call → Response × Database
  | getHealth => (⟨.ok, .text "\x7b\"data\":[\x7b\"message\":\"\",\"status\":\"healthy\"\x7d]\x7d"⟩, db)
  | requestNonce => (⟨.ok, .text ""⟩, db)
  | getContracts params => Handlers.getContracts db params
  | createContract contract => Handlers.createContract db contract
  | updateContract contract => Handlers.updateContract db contract
  | deleteContract contract => Handlers.deleteContract db contract
  | deleteContracts ckey => Handlers.deleteContracts db ckey
  | getEvents params => Handlers.getEvents db params
  | createEvent event => Handlers.createEvent db event
  | updateEvent event => Handlers.updateEvent db event
  | deleteEvent event => Handlers.deleteEvent db event
  | deleteEvents ckey => Handlers.deleteEvents db ckey

/-- The owner's key that a call's row filter, or its new row, names. -/
def owner : Call → Option String
  | getHealth => none
  | requestNonce => none
  | getContracts params => some params.key
  | createContract contract => some contract.key
  | updateContract contract => some contract.key
  | deleteContract contract => some contract.key
  | deleteContracts ckey => some ckey
  | getEvents params => some params.key
  | createEvent event => some event.key
  | updateEvent event => some event.key
  | deleteEvent event => some event.key
  | deleteEvents ckey => some ckey

/-- The owners of the rows that a call inserts, updates or deletes. -/
def written (db : Database) : Call → List String
  | getHealth => []
  | requestNonce => []
  | getContracts _ => []
  | createContract contract =>
      match db.contracts.insert (db.newContractRow contract) with
      | some _ => [contract.key]
      | none => []
  | updateContract contract =>
      (db.contracts.select
        (Database.addressesContract contract.uuid contract.key)).map Contract.key
  | deleteContract contract =>
      (db.contracts.select
        (Database.addressesContract contract.uuid contract.key)).map Contract.key
  | deleteContracts ckey =>
      (db.contracts.select fun row => row.key = ckey).map Contract.key
  | getEvents _ => []
  | createEvent event =>
      match db.events.insert (db.newEventRow event) with
      | some _ => [event.key]
      | none => []
  | updateEvent event =>
      (db.events.select
        (Database.addressesEvent event.eventId event.key)).map Event.key
  | deleteEvent event =>
      (db.events.select
        (Database.addressesEvent event.eventId event.key)).map Event.key
  | deleteEvents ckey =>
      (db.events.select fun row => row.key = ckey).map Event.key

private theorem addressesContract_key {uuid key : String} {row : Contract}
    (addressed : Database.addressesContract uuid key row = true) :
    row.key = key := by
  simp only [Database.addressesContract, Bool.and_eq_true,
    decide_eq_true_eq] at addressed
  exact addressed.2

private theorem addressesEvent_key {eventId key : String} {row : Event}
    (addressed : Database.addressesEvent eventId key row = true) :
    row.key = key := by
  simp only [Database.addressesEvent, Bool.and_eq_true,
    decide_eq_true_eq] at addressed
  exact addressed.2

private theorem eq_of_mem_select_map {ρ κ : Type} {key : ρ → κ}
    {table : UniqueTable ρ κ key} {which : ρ → Bool} {owner : ρ → String}
    {key name : String} (named : ∀ row, which row = true → owner row = name)
    (member : key ∈ (table.select which).map owner) : name = key := by
  obtain ⟨row, rowMem, rfl⟩ := List.mem_map.mp member
  exact (named row (List.mem_filter.mp rowMem).2).symm

/-- A call writes only rows of the owner it names. -/
theorem owner_of_written {db : Database} {call : Call} {key : String}
    (member : key ∈ call.written db) : call.owner = some key := by
  cases call with
  | getHealth => simp [written] at member
  | requestNonce => simp [written] at member
  | getContracts params => simp [written] at member
  | getEvents params => simp [written] at member
  | createContract contract =>
      simp only [written] at member
      split at member
      · exact congrArg some (List.mem_singleton.mp member).symm
      · simp at member
  | createEvent event =>
      simp only [written] at member
      split at member
      · exact congrArg some (List.mem_singleton.mp member).symm
      · simp at member
  | updateContract contract =>
      exact congrArg some
        (eq_of_mem_select_map (fun _ => addressesContract_key) member)
  | deleteContract contract =>
      exact congrArg some
        (eq_of_mem_select_map (fun _ => addressesContract_key) member)
  | deleteContracts ckey =>
      exact congrArg some
        (eq_of_mem_select_map (fun _ => of_decide_eq_true) member)
  | updateEvent event =>
      exact congrArg some
        (eq_of_mem_select_map (fun _ => addressesEvent_key) member)
  | deleteEvent event =>
      exact congrArg some
        (eq_of_mem_select_map (fun _ => addressesEvent_key) member)
  | deleteEvents ckey =>
      exact congrArg some
        (eq_of_mem_select_map (fun _ => of_decide_eq_true) member)

private theorem key_mem_select {ρ κ : Type} {key : ρ → κ}
    {table : UniqueTable ρ κ key} {which : ρ → Bool} {owner : ρ → String}
    {name : String} (absent : name ∉ (table.select which).map owner) (row : ρ)
    (member : row ∈ table.rows) (chosen : which row = true) :
    decide (owner row = name) = false := by
  refine decide_eq_false fun same => absent ?_
  exact List.mem_map.mpr ⟨row, List.mem_filter.mpr ⟨member, chosen⟩, same⟩

/-- The rows of every owner that a call does not write are untouched by it. -/
theorem respond_frame {db : Database} {call : Call} {key : String}
    (absent : key ∉ call.written db) :
    (call.respond db).2.contractsOf key = db.contractsOf key ∧
      (call.respond db).2.eventsOf key = db.eventsOf key := by
  cases call with
  | getHealth => exact ⟨rfl, rfl⟩
  | requestNonce => exact ⟨rfl, rfl⟩
  | getContracts params => exact ⟨rfl, rfl⟩
  | getEvents params => exact ⟨rfl, rfl⟩
  | createContract contract =>
      simp only [written] at absent
      simp only [respond, Handlers.createContract, Database.createContract]
      cases inserted : db.contracts.insert (db.newContractRow contract) with
      | none => exact ⟨rfl, rfl⟩
      | some contracts =>
          rw [inserted] at absent
          exact ⟨UniqueTable.select_insert_of_disjoint inserted
            (decide_eq_false fun same => absent (by simp [← same, Database.newContractRow])),
            rfl⟩
  | createEvent event =>
      simp only [written] at absent
      simp only [respond, Handlers.createEvent, Database.createEvent]
      cases inserted : db.events.insert (db.newEventRow event) with
      | none => exact ⟨rfl, rfl⟩
      | some events =>
          rw [inserted] at absent
          exact ⟨rfl, UniqueTable.select_insert_of_disjoint inserted
            (decide_eq_false fun same => absent (by simp [← same, Database.newEventRow]))⟩
  | updateContract contract =>
      refine ⟨UniqueTable.select_update_of_disjoint _
        (Database.setContract_uniqueKey contract) (key_mem_select absent) ?_, rfl⟩
      intro row member chosen
      have other := key_mem_select absent row member chosen
      rw [addressesContract_key chosen] at other
      exact other
  | updateEvent event =>
      refine ⟨rfl, UniqueTable.select_update_of_disjoint _
        (Database.setEvent_uniqueKey event) (key_mem_select absent) ?_⟩
      intro row member chosen
      have other := key_mem_select absent row member chosen
      rw [addressesEvent_key chosen] at other
      exact other
  | deleteContract contract =>
      exact ⟨UniqueTable.select_delete_of_disjoint _ (key_mem_select absent), rfl⟩
  | deleteContracts ckey =>
      exact ⟨UniqueTable.select_delete_of_disjoint _ (key_mem_select absent), rfl⟩
  | deleteEvent event =>
      exact ⟨rfl, UniqueTable.select_delete_of_disjoint _ (key_mem_select absent)⟩
  | deleteEvents ckey =>
      exact ⟨rfl, UniqueTable.select_delete_of_disjoint _ (key_mem_select absent)⟩

/-! ## What a call returns -/

private theorem owners_effected (absent : String) (num : Nat) :
    (Handlers.effected absent num).body.owners = [] := by
  cases num <;> rfl

/-- A call returns only rows of the owner it names. -/
theorem owner_of_returned {db : Database} {call : Call} {key : String}
    (member : key ∈ (call.respond db).1.body.owners) : call.owner = some key := by
  cases call with
  | getHealth => cases member
  | requestNonce => cases member
  | getContracts params =>
      obtain ⟨row, selected, rfl⟩ : ∃ row ∈ db.getContracts params, row.key = key := by
        simpa [respond, Handlers.getContracts, Body.owners, Body.contractRows,
          Body.eventRows] using member
      have filtered := (List.mem_filter.mp selected).2
      simp only [Database.contractsFilter, Bool.and_eq_true,
        decide_eq_true_eq] at filtered
      exact congrArg some filtered.1.1.symm
  | getEvents params =>
      obtain ⟨row, selected, rfl⟩ : ∃ row ∈ db.getEvents params, row.key = key := by
        simpa [respond, Handlers.getEvents, Body.owners, Body.contractRows,
          Body.eventRows] using member
      have filtered := (List.mem_filter.mp selected).2
      simp only [Database.eventsFilter, Bool.and_eq_true,
        decide_eq_true_eq] at filtered
      exact congrArg some filtered.1.symm
  | createContract contract =>
      simp only [respond, Handlers.createContract, Database.createContract] at member
      cases inserted : db.contracts.insert (db.newContractRow contract) with
      | none =>
          rw [inserted] at member
          cases member
      | some contracts =>
          rw [inserted] at member
          exact congrArg some (List.mem_singleton.mp member).symm
  | createEvent event =>
      simp only [respond, Handlers.createEvent, Database.createEvent] at member
      cases inserted : db.events.insert (db.newEventRow event) with
      | none =>
          rw [inserted] at member
          cases member
      | some events =>
          rw [inserted] at member
          exact congrArg some (List.mem_singleton.mp member).symm
  | updateContract contract =>
      simp [respond, Handlers.updateContract, owners_effected] at member
  | deleteContract contract =>
      simp [respond, Handlers.deleteContract, owners_effected] at member
  | updateEvent event =>
      simp [respond, Handlers.updateEvent, owners_effected] at member
  | deleteEvent event =>
      simp [respond, Handlers.deleteEvent, owners_effected] at member
  | deleteContracts ckey => cases member
  | deleteEvents ckey => cases member

/-! ## Calls without effect -/

/-- The call finds no row to return, no room for its new row, and no row to
delete or to set to other values than it has. -/
def Idle (db : Database) : Call → Prop
  | getHealth => True
  | requestNonce => True
  | getContracts params =>
      ∀ row ∈ db.contracts.rows, Database.contractsFilter params row = false
  | createContract contract =>
      ∃ row ∈ db.contracts.rows,
        row.key = contract.key ∧ row.uuid = contract.uuid
  | updateContract contract =>
      ∀ row ∈ db.contracts.rows,
        Database.addressesContract contract.uuid contract.key row = true →
          Database.setContract contract row = row
  | deleteContract contract =>
      ∀ row ∈ db.contracts.rows,
        Database.addressesContract contract.uuid contract.key row = false
  | deleteContracts ckey => ∀ row ∈ db.contracts.rows, row.key ≠ ckey
  | getEvents params =>
      ∀ row ∈ db.events.rows, Database.eventsFilter params row = false
  | createEvent event =>
      ∃ row ∈ db.events.rows, row.key = event.key ∧ row.eventId = event.eventId
  | updateEvent event =>
      ∀ row ∈ db.events.rows,
        Database.addressesEvent event.eventId event.key row = true →
          Database.setEvent event row = row
  | deleteEvent event =>
      ∀ row ∈ db.events.rows,
        Database.addressesEvent event.eventId event.key row = false
  | deleteEvents ckey => ∀ row ∈ db.events.rows, row.key ≠ ckey

end Call

/-- No row was created, changed or deleted between two databases, and the
response holds no row. -/
def NothingDone (before after : Database) (response : Response) : Prop :=
  after.contracts.rows = before.contracts.rows ∧
    after.events.rows = before.events.rows ∧
    response.body.contractRows = [] ∧ response.body.eventRows = []

namespace Call

private theorem rows_effected (absent : String) (num : Nat) :
    (Handlers.effected absent num).body.contractRows = [] ∧
      (Handlers.effected absent num).body.eventRows = [] := by
  cases num <;> exact ⟨rfl, rfl⟩

/-- Whether a call does nothing is decided by the rows its filter finds. -/
theorem nothingDone_iff (db : Database) (call : Call) :
    NothingDone db (call.respond db).2 (call.respond db).1 ↔ call.Idle db := by
  cases call with
  | getHealth => exact ⟨fun _ => trivial, fun _ => ⟨rfl, rfl, rfl, rfl⟩⟩
  | requestNonce => exact ⟨fun _ => trivial, fun _ => ⟨rfl, rfl, rfl, rfl⟩⟩
  | getContracts params =>
      simp [NothingDone, respond, Handlers.getContracts, Body.contractRows,
        Body.eventRows, Database.getContracts, UniqueTable.select_eq_nil_iff, Idle]
  | getEvents params =>
      simp [NothingDone, respond, Handlers.getEvents, Body.contractRows,
        Body.eventRows, Database.getEvents, UniqueTable.select_eq_nil_iff, Idle]
  | createContract contract =>
      simp only [respond, Handlers.createContract, Database.createContract]
      cases inserted : db.contracts.insert (db.newContractRow contract) with
      | none =>
          obtain ⟨row, found⟩ := UniqueTable.insert_eq_none_iff.mp inserted
          obtain ⟨member, same⟩ := UniqueTable.find?_eq_some_iff.mp found
          have idle : (createContract contract).Idle db :=
            ⟨row, member, congrArg Prod.fst same, congrArg Prod.snd same⟩
          exact ⟨fun _ => idle, fun _ => ⟨rfl, rfl, rfl, rfl⟩⟩
      | some contracts =>
          have free := (UniqueTable.insert_eq_some_iff.mp inserted).1
          constructor
          · intro nothing
            cases nothing.2.2.1
          · rintro ⟨row, member, key, uuid⟩
            exact absurd (Prod.ext key uuid) (UniqueTable.find?_eq_none_iff.mp free row member)
  | createEvent event =>
      simp only [respond, Handlers.createEvent, Database.createEvent]
      cases inserted : db.events.insert (db.newEventRow event) with
      | none =>
          obtain ⟨row, found⟩ := UniqueTable.insert_eq_none_iff.mp inserted
          obtain ⟨member, same⟩ := UniqueTable.find?_eq_some_iff.mp found
          have idle : (createEvent event).Idle db :=
            ⟨row, member, congrArg Prod.fst same, congrArg Prod.snd same⟩
          exact ⟨fun _ => idle, fun _ => ⟨rfl, rfl, rfl, rfl⟩⟩
      | some events =>
          have free := (UniqueTable.insert_eq_some_iff.mp inserted).1
          constructor
          · intro nothing
            cases nothing.2.2.2
          · rintro ⟨row, member, key, eventId⟩
            exact absurd (Prod.ext key eventId)
              (UniqueTable.find?_eq_none_iff.mp free row member)
  | updateContract contract =>
      simp only [NothingDone, respond, Handlers.updateContract, rows_effected,
        Database.updateContract, UniqueTable.rows_update_eq_iff, and_true, Idle]
  | updateEvent event =>
      simp only [NothingDone, respond, Handlers.updateEvent, rows_effected,
        Database.updateEvent, UniqueTable.rows_update_eq_iff, and_true,
        true_and, Idle]
  | deleteContract contract =>
      simp only [NothingDone, respond, Handlers.deleteContract, rows_effected,
        Database.deleteContract, UniqueTable.rows_delete_eq_iff, and_true, Idle]
  | deleteEvent event =>
      simp only [NothingDone, respond, Handlers.deleteEvent, rows_effected,
        Database.deleteEvent, UniqueTable.rows_delete_eq_iff, and_true,
        true_and, Idle]
  | deleteContracts ckey =>
      simp only [NothingDone, respond, Handlers.deleteContracts, Body.contractRows,
        Body.eventRows, Database.deleteAllContracts,
        UniqueTable.rows_delete_eq_iff, and_true, decide_eq_false_iff_not, Idle]
  | deleteEvents ckey =>
      simp only [NothingDone, respond, Handlers.deleteEvents, Body.contractRows,
        Body.eventRows, Database.deleteAllEvents,
        UniqueTable.rows_delete_eq_iff, and_true, true_and,
        decide_eq_false_iff_not, Idle]

end Call

end Storage

end DlcStack
