import DlcStack.UniqueTable

/-!
# The storage database

The two tables of the storage API, the parameter records of `storage/common`
and the operations of `storage/common/src/lib.rs`.  Both tables carry a unique
constraint on the owner's key together with the contract uuid or event id, and
number their rows by a sequence, which a failed insertion uses up as well.
-/

namespace DlcStack

namespace Storage

/-- A row of the `contracts` table. -/
structure Contract where
  id : Nat
  uuid : String
  state : String
  content : String
  key : String
  deriving DecidableEq, Repr

structure NewContract where
  uuid : String
  state : String
  content : String
  key : String
  deriving DecidableEq, Repr

structure UpdateContract where
  uuid : String
  state : Option String
  content : Option String
  key : String
  deriving DecidableEq, Repr

structure DeleteContract where
  uuid : String
  key : String
  deriving DecidableEq, Repr

structure ContractRequestParams where
  key : String
  uuid : Option String
  state : Option String
  deriving DecidableEq, Repr

/-- A row of the `events` table. -/
structure Event where
  id : Nat
  eventId : String
  content : String
  key : String
  deriving DecidableEq, Repr

structure NewEvent where
  eventId : String
  content : String
  key : String
  deriving DecidableEq, Repr

structure UpdateEvent where
  eventId : String
  content : String
  key : String
  deriving DecidableEq, Repr

structure DeleteEvent where
  eventId : String
  key : String
  deriving DecidableEq, Repr

structure EventRequestParams where
  key : String
  eventId : Option String
  deriving DecidableEq, Repr

/-- The columns of `UNIQUE (key, uuid)`. -/
def Contract.uniqueKey (row : Contract) : String × String :=
  (row.key, row.uuid)

/-- The columns of `UNIQUE (key, event_id)`. -/
def Event.uniqueKey (row : Event) : String × String :=
  (row.key, row.eventId)

structure Database where
  contracts : UniqueTable Contract (String × String) Contract.uniqueKey
  nextContractId : Nat
  events : UniqueTable Event (String × String) Event.uniqueKey
  nextEventId : Nat
  deriving DecidableEq

namespace Database

/-- The database after the migrations. -/
def empty : Database :=
  ⟨.empty, 1, .empty, 1⟩

/-- The contracts of one owner. -/
def contractsOf (db : Database) (key : String) : List Contract :=
  db.contracts.select fun row => row.key = key

/-- The events of one owner. -/
def eventsOf (db : Database) (key : String) : List Event :=
  db.events.select fun row => row.key = key

/-- An insertion that violates the unique constraint of its table. -/
inductive Error where
  | uniqueViolation (constraint : String)
  deriving DecidableEq, Repr

def Error.toString : Error → String
  | .uniqueViolation constraint =>
      "duplicate key value violates unique constraint \"" ++ constraint ++ "\""

/-- `query.filter(column.eq(value))` when a value is given. -/
def matchesOption (column : String) : Option String → Bool
  | none => true
  | some value => column = value

/-! ## Contracts -/

/-- The filter of `get_contracts`. -/
def contractsFilter (params : ContractRequestParams)
    (row : Contract) : Bool :=
  row.key = params.key && matchesOption row.state params.state &&
    matchesOption row.uuid params.uuid

def getContracts (db : Database) (params : ContractRequestParams) :
    List Contract :=
  db.contracts.select (contractsFilter params)

/-- The contracts of one owner in one state. -/
theorem getContracts_inState (db : Database) (key state : String) :
    db.getContracts ⟨key, none, some state⟩ =
      (db.contractsOf key).filter fun row => row.state = state := by
  have filter : contractsFilter ⟨key, none, some state⟩ =
      fun row : Contract => decide (row.state = state) && decide (row.key = key) := by
    funext row
    simp [contractsFilter, matchesOption, Bool.and_comm]
  rw [getContracts, filter, contractsOf, UniqueTable.select, UniqueTable.select,
    List.filter_filter]

/-- The contract of one owner with one uuid. -/
theorem getContracts_one (db : Database) (key uuid : String) :
    db.getContracts ⟨key, some uuid, none⟩ = (db.contracts.find? (key, uuid)).toList := by
  have filter : contractsFilter ⟨key, some uuid, none⟩ =
      fun row : Contract => decide (row.uniqueKey = (key, uuid)) := by
    funext row
    simp [contractsFilter, matchesOption, Contract.uniqueKey]
  rw [getContracts, filter, UniqueTable.select_key]

/-- The row that `create_contract` inserts. -/
def newContractRow (db : Database) (contract : NewContract) : Contract :=
  ⟨db.nextContractId, contract.uuid, contract.state, contract.content,
    contract.key⟩

def createContract (db : Database) (contract : NewContract) :
    Except Error Contract × Database :=
  let advanced := { db with nextContractId := db.nextContractId + 1 }
  match db.contracts.insert (db.newContractRow contract) with
  | some contracts =>
      (.ok (db.newContractRow contract), { advanced with contracts })
  | none => (.error (.uniqueViolation "contracts_key_uuid_key"), advanced)

/-- The filter of the contract operations that address one row. -/
def addressesContract (uuid key : String) (row : Contract) : Bool :=
  row.uuid = uuid && row.key = key

/-- The changeset of an `UpdateContract`: absent columns keep their value. -/
def setContract (contract : UpdateContract) (row : Contract) :
    Contract :=
  { row with
    uuid := contract.uuid
    state := contract.state.getD row.state
    content := contract.content.getD row.content
    key := contract.key }

theorem setContract_uniqueKey (contract : UpdateContract)
    (row : Contract)
    (addressed : addressesContract contract.uuid contract.key row = true) :
    (setContract contract row).uniqueKey = row.uniqueKey := by
  simp only [addressesContract, Bool.and_eq_true, decide_eq_true_eq] at addressed
  simp [setContract, Contract.uniqueKey, addressed]

def updateContract (db : Database) (contract : UpdateContract) :
    Nat × Database :=
  ((db.contracts.select (addressesContract contract.uuid contract.key)).length,
    { db with
      contracts := db.contracts.update
        (addressesContract contract.uuid contract.key)
        (setContract contract) (setContract_uniqueKey contract) })

def deleteContract (db : Database) (contract : DeleteContract) :
    Nat × Database :=
  ((db.contracts.select (addressesContract contract.uuid contract.key)).length,
    { db with
      contracts := db.contracts.delete
        (addressesContract contract.uuid contract.key) })

theorem addressesContract_eq (uuid key : String) :
    addressesContract uuid key = fun row : Contract => row.uniqueKey = (key, uuid) := by
  funext row
  simp [addressesContract, Contract.uniqueKey, Bool.and_comm]

/-- A deletion removes one record. -/
theorem find?_deleteContract (db : Database) (contract : DeleteContract)
    (wanted : String × String) :
    (db.deleteContract contract).2.contracts.find? wanted =
      if wanted = (contract.key, contract.uuid) then none
      else db.contracts.find? wanted := by
  unfold deleteContract
  simp only [addressesContract_eq]
  exact UniqueTable.find?_erase db.contracts (contract.key, contract.uuid) wanted

/-- An update sets the columns of one record. -/
theorem find?_updateContract (db : Database) (contract : UpdateContract)
    (wanted : String × String) :
    (db.updateContract contract).2.contracts.find? wanted =
      if wanted = (contract.key, contract.uuid) then
        (db.contracts.find? wanted).map (setContract contract)
      else db.contracts.find? wanted := by
  unfold updateContract
  simp only [addressesContract_eq, UniqueTable.find?_update]
  cases found : db.contracts.find? wanted with
  | none => simp
  | some row =>
      obtain ⟨_, rfl⟩ := UniqueTable.find?_eq_some_iff.mp found
      by_cases same : row.uniqueKey = (contract.key, contract.uuid) <;> simp [same]

/-- An update counts the one record it finds. -/
theorem updateContract_fst (db : Database) (contract : UpdateContract) :
    (db.updateContract contract).1 =
      (db.contracts.find? (contract.key, contract.uuid)).toList.length := by
  unfold updateContract
  simp only [addressesContract_eq, UniqueTable.select_key]

def deleteAllContracts (db : Database) (ckey : String) : Nat × Database :=
  ((db.contracts.select fun row => row.key = ckey).length,
    { db with contracts := db.contracts.delete fun row => row.key = ckey })

/-! ## Events -/

/-- The filter of `get_events`. -/
def eventsFilter (params : EventRequestParams) (row : Event) :
    Bool :=
  row.key = params.key && matchesOption row.eventId params.eventId

def getEvents (db : Database) (params : EventRequestParams) : List Event :=
  db.events.select (eventsFilter params)

/-- The row that `create_event` inserts. -/
def newEventRow (db : Database) (event : NewEvent) : Event :=
  ⟨db.nextEventId, event.eventId, event.content, event.key⟩

def createEvent (db : Database) (event : NewEvent) :
    Except Error Event × Database :=
  let advanced := { db with nextEventId := db.nextEventId + 1 }
  match db.events.insert (db.newEventRow event) with
  | some events => (.ok (db.newEventRow event), { advanced with events })
  | none => (.error (.uniqueViolation "events_key_event_id_key"), advanced)

/-- The filter of the event operations that address one row. -/
def addressesEvent (eventId key : String) (row : Event) : Bool :=
  row.eventId = eventId && row.key = key

/-- The changeset of an `UpdateEvent`. -/
def setEvent (event : UpdateEvent) (row : Event) : Event :=
  { row with
    eventId := event.eventId
    content := event.content
    key := event.key }

theorem setEvent_uniqueKey (event : UpdateEvent) (row : Event)
    (addressed : addressesEvent event.eventId event.key row = true) :
    (setEvent event row).uniqueKey = row.uniqueKey := by
  simp only [addressesEvent, Bool.and_eq_true, decide_eq_true_eq] at addressed
  simp [setEvent, Event.uniqueKey, addressed]

def updateEvent (db : Database) (event : UpdateEvent) : Nat × Database :=
  ((db.events.select (addressesEvent event.eventId event.key)).length,
    { db with
      events := db.events.update (addressesEvent event.eventId event.key)
        (setEvent event) (setEvent_uniqueKey event) })

def deleteEvent (db : Database) (event : DeleteEvent) : Nat × Database :=
  ((db.events.select (addressesEvent event.eventId event.key)).length,
    { db with
      events := db.events.delete (addressesEvent event.eventId event.key) })

theorem addressesEvent_eq (eventId key : String) :
    addressesEvent eventId key = fun row : Event => row.uniqueKey = (key, eventId) := by
  funext row
  simp [addressesEvent, Event.uniqueKey, Bool.and_comm]

theorem eventsFilter_eq (key eventId : String) :
    eventsFilter ⟨key, some eventId⟩ = fun row : Event => row.uniqueKey = (key, eventId) := by
  funext row
  simp [eventsFilter, matchesOption, Event.uniqueKey]

/-- The request for one event finds at most one record. -/
theorem getEvents_one (db : Database) (key eventId : String) :
    db.getEvents ⟨key, some eventId⟩ = (db.events.find? (key, eventId)).toList := by
  unfold getEvents
  rw [eventsFilter_eq, UniqueTable.select_key]

/-- An update sets the columns of one record. -/
theorem find?_updateEvent (db : Database) (event : UpdateEvent)
    (wanted : String × String) :
    (db.updateEvent event).2.events.find? wanted =
      if wanted = (event.key, event.eventId) then
        (db.events.find? wanted).map (setEvent event)
      else db.events.find? wanted := by
  unfold updateEvent
  simp only [addressesEvent_eq, UniqueTable.find?_update]
  cases found : db.events.find? wanted with
  | none => simp
  | some row =>
      obtain ⟨_, rfl⟩ := UniqueTable.find?_eq_some_iff.mp found
      by_cases same : row.uniqueKey = (event.key, event.eventId) <;> simp [same]

/-- A creation adds one record, or leaves the one that exists. -/
theorem find?_createEvent (db : Database) (event : NewEvent) (wanted : String × String) :
    (db.createEvent event).2.events.find? wanted =
      match db.events.find? (event.key, event.eventId) with
      | none =>
          if wanted = (event.key, event.eventId) then some (db.newEventRow event)
          else db.events.find? wanted
      | some _ => db.events.find? wanted := by
  unfold createEvent
  cases inserted : db.events.insert (db.newEventRow event) with
  | none =>
      obtain ⟨row, found⟩ := UniqueTable.insert_eq_none_iff.mp inserted
      simp only [show (db.newEventRow event).uniqueKey = (event.key, event.eventId) from rfl]
        at found
      simp [found]
  | some events =>
      have absent := (UniqueTable.insert_eq_some_iff.mp inserted).1
      simp only [show (db.newEventRow event).uniqueKey = (event.key, event.eventId) from rfl]
        at absent
      simp only [absent]
      exact UniqueTable.find?_insert inserted wanted

def deleteAllEvents (db : Database) (ckey : String) : Nat × Database :=
  ((db.events.select fun row => row.key = ckey).length,
    { db with events := db.events.delete fun row => row.key = ckey })

end Database

end Storage

end DlcStack
