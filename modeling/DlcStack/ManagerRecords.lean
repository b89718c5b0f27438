import DlcStack.AsyncStorageCoherence
import DlcStack.EffectProjection
import DlcStack.ManagerRuns

/-!
# The periodic check on the records of the storage API

Here the manager's store is the provider on a database, each storage request
with its HTTP requests, and may fail with or without its effect.  The others
answer as they like, differently in each phase.

A phase lists the records in one state and checks their contracts.  The check of
a contract sees and changes only the record of that contract, so a phase advances
each record by itself, if every record that it lists can be read and every
contract has an event to report it under.
-/

namespace DlcStack

namespace LinkManager

open Program hiding ask
open Clients Clients.AsyncStorageApiProvider

/-! ## The manager's requests at the database -/

/-- What becomes of a storage request. -/
inductive Link where
  | up
  | down
  | replyLost
  deriving DecidableEq, Repr

/-- What a caller sees of an operation, and the state after it. -/
def Link.pass {α σ : Type} (link : Link) (before : σ)
    (outcome : Except DlcError α × σ) : Except DlcError α × σ :=
  match link with
  | up => outcome
  | down => (.error (.storageError "unavailable"), before)
  | replyLost => (.error (.storageError "timed out"), outcome.2)

/-- What others answer, and what becomes of the storage requests. -/
structure Surroundings where
  answers : (request : WalletRequest) → request.Answer
  link : WalletRequest → Link

/-- An operation of the provider, all of whose HTTP requests are delivered. -/
def delivered {α : Type} (operation : ProviderM α) (db : Storage.Database) :
    Except DlcError α × Storage.Database :=
  (eval deliver operation.run db).2

/-- The wallet's requests, with the provider as its store.  The state counts the
listings, and the surroundings may change with each. -/
def serveRows (provider : AsyncStorageApiProvider) (around : Nat → Surroundings) :
    Responder (Storage.Database × Nat) WalletRequest WalletRequest.Answer :=
  fun (db, time) request =>
    let link := (around time).link request
    match request with
    | .getContract id =>
        let outcome := link.pass db (delivered (provider.getContract id) db)
        (outcome.1, outcome.2, time)
    | .createContract contract =>
        let outcome := link.pass db (delivered (provider.createContract contract) db)
        (outcome.1, outcome.2, time)
    | .updateContract contract =>
        let outcome := link.pass db (delivered (provider.updateContract contract) db)
        (outcome.1, outcome.2, time)
    | .getSignedContracts =>
        let outcome := link.pass db (delivered provider.getSignedContracts db)
        (outcome.1, outcome.2, time + 1)
    | .getConfirmedContracts =>
        let outcome := link.pass db (delivered provider.getConfirmedContracts db)
        (outcome.1, outcome.2, time + 1)
    | .getPreclosedContracts =>
        let outcome := link.pass db (delivered provider.getPreclosedContracts db)
        (outcome.1, outcome.2, time + 1)
    | request => ((around time).answers request, db, time)

/-! ## The view of one record -/

/-- The update of the record of a contract that stays where it is. -/
def updateRow (provider : AsyncStorageApiProvider) (contract : DlcContract)
    (row : Storage.Contract) : Except DlcError Unit × Storage.Contract :=
  match provider.encode contract with
  | .ok content =>
      (.ok (), Storage.Database.setContract (provider.updateRequest contract content) row)
  | .error error => (.error (.ioError error), row)

/-- The requests of the check of one contract, with its record as the only one. -/
def serveRow (provider : AsyncStorageApiProvider) (around : Surroundings) :
    Responder Storage.Contract WalletRequest WalletRequest.Answer :=
  fun row request =>
    match request with
    | .updateContract contract =>
        (around.link (.updateContract contract)).pass row
          (updateRow provider contract row)
    | request => (around.answers request, row)

/-- The requests that the check of an accepted contract may make. -/
def Concerns (accepted : AcceptedContract) : WalletRequest → Prop
  | .updateContract contract =>
      contract.isMoved = false ∧ contract.getId = accepted.contractId ∧
        ∀ other, contract.acceptedContract? = some other → other = accepted
  | .sendTransaction _ => True
  | request => request.isInquiry = true

/-- The unique key of the record of an accepted contract. -/
def recordKey (provider : AsyncStorageApiProvider) (accepted : AcceptedContract) :
    String × String :=
  (provider.publicKey, getContractIdString accepted.contractId)

/-- The database holds a record, and is otherwise as it was. -/
structure Tracks (base : Storage.Database) (time : Nat) (key : String × String)
    (state : Storage.Database × Nat) (row : Storage.Contract) : Prop where
  time : state.2 = time
  found : state.1.contracts.find? key = some row
  others : ∀ other, other ≠ key →
    state.1.contracts.find? other = base.contracts.find? other

section Delivered

variable {provider : AsyncStorageApiProvider} {db : Storage.Database}

theorem delivered_request {α : Type} (call : Storage.Call)
    (read : Storage.Response → Except ApiError α) :
    delivered (toStorageError (StorageApiClient.request call read)) db =
      ((read (call.respond db).1).mapError fun error => .storageError error.toString,
        (call.respond db).2) := by
  have requested : (eval deliver (StorageApiClient.request call read).run db).2 =
      (read (call.respond db).1, (call.respond db).2) := rfl
  unfold delivered toStorageError
  rw [ExceptT.run_mk, eval_bind_snd, requested]
  cases read (call.respond db).1 <;> rfl

/-- The row that is read for an identifier. -/
theorem delivered_getContract_row (id : ContractId) :
    delivered (toStorageError (StorageApiClient.getContract provider.publicKey
        (getContractIdString id))) db =
      (.ok (db.contracts.find? (provider.publicKey, getContractIdString id)), db) := by
  have listed := Storage.Database.getContracts_one db provider.publicKey
    (getContractIdString id)
  have asked : delivered (toStorageError (StorageApiClient.getContract provider.publicKey
      (getContractIdString id))) db = (.ok (db.getContracts ⟨provider.publicKey,
        some (getContractIdString id), none⟩).head?, db) := rfl
  rw [asked, listed]
  cases db.contracts.find? (provider.publicKey, getContractIdString id) <;> rfl

theorem delivered_getContract_none {id : ContractId}
    (absent : db.contracts.find? (provider.publicKey, getContractIdString id) = none) :
    delivered (provider.getContract id) db = (.ok none, db) := by
  have read := @delivered_getContract_row provider db id
  unfold delivered at read ⊢
  unfold getContract
  rw [ExceptT.run_bind, eval_bind_snd, read, absent]
  rfl

theorem delivered_getContract_some {id : ContractId} {row : Storage.Contract}
    {contract : DlcContract}
    (found : db.contracts.find? (provider.publicKey, getContractIdString id) = some row)
    (decoded : provider.decode row.content = .ok contract) :
    delivered (provider.getContract id) db = (.ok (some contract), db) := by
  have read := @delivered_getContract_row provider db id
  unfold delivered at read ⊢
  unfold getContract
  rw [ExceptT.run_bind, eval_bind_snd, read, found]
  dsimp only
  rw [decoded]
  rfl

/-- The update of a contract that has a record sets that record. -/
theorem delivered_updateContract {contract : DlcContract} {row : Storage.Contract}
    (stays : contract.isMoved = false)
    (found : db.contracts.find? (provider.finalKey contract) = some row) :
    (delivered (provider.updateContract contract) db).1 =
        (updateRow provider contract row).1 ∧
      ∀ key, (delivered (provider.updateContract contract) db).2.contracts.find? key =
        if key = provider.finalKey contract then some (updateRow provider contract row).2
        else db.contracts.find? key := by
  have unfolded : provider.updateContract contract = (do
      let content ← provider.content contract
      toStorageError (StorageApiClient.updateContract
        (provider.updateRequest contract content))) := by
    cases contract with
    | accepted accepted => cases stays
    | signed signed => cases stays
    | _ => rfl
  rw [unfolded]
  unfold content updateRow
  cases written : provider.encode contract with
  | error error =>
      refine ⟨rfl, fun key => ?_⟩
      split_ifs with same
      · rw [same]
        exact found
      · rfl
  | ok content =>
      have counted := Storage.Database.updateContract_fst db
        (provider.updateRequest contract content)
      have addressed : db.contracts.find? ((provider.updateRequest contract content).key,
        (provider.updateRequest contract content).uuid) = some row := found
      rw [addressed] at counted
      have outcome : delivered (toStorageError (StorageApiClient.updateContract
          (provider.updateRequest contract content))) db =
            (.ok (), (db.updateContract (provider.updateRequest contract content)).2) := by
        unfold StorageApiClient.updateContract
        rw [delivered_request]
        simp only [Storage.Call.respond, Storage.Handlers.updateContract]
        rw [counted]
        rfl
      change (delivered (toStorageError _) db).1 = _ ∧
        ∀ key, (delivered (toStorageError _) db).2.contracts.find? key = _
      rw [outcome]
      refine ⟨rfl, fun key => ?_⟩
      have updated := Storage.Database.find?_updateContract db
        (provider.updateRequest contract content) key
      by_cases same : key = provider.finalKey contract
      · rw [if_pos same]
        refine (updated.trans (if_pos same)).trans ?_
        rw [same, found]
        rfl
      · rw [if_neg same]
        exact updated.trans (if_neg same)

/-- The listing of a state whose records can be read. -/
theorem delivered_contractsOf {α : Type} {state : String} {variant : DlcContract → Option α}
    (decodes : ∀ row ∈ db.contracts.rows, row.key = provider.publicKey →
      row.state = state → ∃ contract, provider.decode row.content = .ok contract) :
    delivered (provider.contractsOf state variant) db =
      (.ok ((((db.contractsOf provider.publicKey).filter fun row =>
        row.state = state).filterMap provider.contract?).filterMap variant), db) := by
  have listed : delivered (toStorageError (StorageApiClient.getContracts
      ⟨provider.publicKey, none, some state⟩)) db =
        (.ok (db.getContracts ⟨provider.publicKey, none, some state⟩), db) :=
    delivered_request (.getContracts ⟨provider.publicKey, none, some state⟩) _
  have decoded : provider.decodeAll (db.getContracts
      ⟨provider.publicKey, none, some state⟩) = pure ((db.getContracts
        ⟨provider.publicKey, none, some state⟩).filterMap provider.contract?) := by
    refine decodeAll_eq fun row member => ?_
    rw [Storage.Database.getContracts_inState] at member
    obtain ⟨ours, inState⟩ := List.mem_filter.mp member
    obtain ⟨stored, owned⟩ := List.mem_filter.mp ours
    exact decodes row stored (of_decide_eq_true owned) (of_decide_eq_true inState)
  unfold delivered at listed ⊢
  unfold contractsOf getContractsByState
  rw [bind_assoc, ExceptT.run_bind, eval_bind_snd, listed]
  dsimp only
  rw [decoded, Storage.Database.getContracts_inState]
  rfl

end Delivered

/-- The check of one contract sees and changes its record only. -/
theorem simulates_serveRow (provider : AsyncStorageApiProvider)
    (around : Nat → Surroundings) (accepted : AcceptedContract)
    (base : Storage.Database) (time : Nat) :
    Simulates (Concerns accepted) (Tracks base time (recordKey provider accepted))
      (serveRows provider around) (serveRow provider (around time)) := by
  rintro ⟨db, now⟩ row request concerned ⟨rfl, found, others⟩
  have read (answer : request.Answer) :
      answer = answer ∧ Tracks base now (recordKey provider accepted) (db, now) row :=
    ⟨rfl, rfl, found, others⟩
  cases request with
  | updateContract contract =>
      obtain ⟨stays, sameId, -⟩ := concerned
      have sameKey : provider.finalKey contract = recordKey provider accepted := by
        rw [finalKey, recordKey, sameId]
      rw [← sameKey] at found others ⊢
      obtain ⟨answered, stored⟩ := delivered_updateContract stays found
      have updated : Tracks base now (provider.finalKey contract)
          ((delivered (provider.updateContract contract) db).2, now)
          (updateRow provider contract row).2 :=
        ⟨rfl, (stored _).trans (if_pos rfl), fun other different =>
          ((stored other).trans (if_neg different)).trans (others other different)⟩
      simp only [serveRows, serveRow]
      cases (around now).link (.updateContract contract) with
      | up => exact ⟨answered, updated⟩
      | down => exact ⟨rfl, rfl, found, others⟩
      | replyLost => exact ⟨rfl, updated⟩
  | sendTransaction transaction => exact read _
  | getTransactionConfirmations txid => exact read _
  | getAttestation oracle eventId => exact read _
  | getUnixtime => exact read _
  | getSignedCet contract info adaptor attestations => exact read _
  | getSignedRefund contract => exact read _
  | _ => cases concerned

/-! ## The requests of the checks -/

theorem asks_ask {accepted : AcceptedContract} {request : WalletRequest}
    (concerned : Concerns accepted request) :
    Asks (Concerns accepted) (ask request).run :=
  asks_perform concerned

theorem asks_checkSignedContract (contract : SignedContract) :
    Asks (Concerns contract.acceptedContract) (checkSignedContract contract).run := by
  unfold checkSignedContract
  refine asks_run_bind (asks_ask rfl) fun confirmations => ?_
  split_ifs
  · refine asks_run_bind (asks_ask ⟨rfl, rfl, ?_⟩) fun _ => asks_pure _
    rintro _ ⟨⟩
    rfl
  · exact asks_pure _

/-- Only the attestors are asked. -/
theorem asks_findClosable (manager : Manager) (oracles : List PublicKey)
    (infos : List (ContractInfo × AdaptorInfo)) :
    Asks (fun request => ∃ oracle eventId, request = .getAttestation oracle eventId)
      (findClosable manager oracles infos) := by
  induction infos with
  | nil => exact asks_pure _
  | cons info rest ih =>
      obtain ⟨info, adaptor⟩ := info
      unfold findClosable
      split_ifs
      · refine asks_bind (asks_mapM _ fun element => ?_) fun answers => ?_
        · obtain ⟨announcement, index⟩ := element
          unfold indexedAttestation
          dsimp only
          split_ifs
          · exact asks_run_bind (asks_adapt (asks_perform ⟨_, _, rfl⟩)) fun _ => asks_pure _
          · exact asks_pure _
        · dsimp only
          split_ifs
          · exact asks_pure _
          · exact ih
      · exact ih

theorem asks_getClosableContractInfo (manager : Manager) (contract : SignedContract) :
    Asks (fun request => ∃ oracle eventId, request = .getAttestation oracle eventId)
      (getClosableContractInfo manager contract).run := by
  unfold getClosableContractInfo
  cases manager.oracles with
  | none => exact asks_pure _
  | some oracles => exact asks_lift (asks_findClosable manager oracles _)

/-- Closing returns one of two contracts, and what follows goes on from there. -/
theorem asks_closeContract_bind {α : Type} {allowed : WalletRequest → Prop}
    (manager : Manager) (contract : SignedContract) (signedCet : Transaction)
    (attestations : List OracleAttestation) {rest : DlcContract → ManagerM α}
    (confirms : allowed (.getTransactionConfirmations signedCet.txid))
    (sends : allowed (.sendTransaction signedCet))
    (preClosed : Asks allowed
      (rest (.preClosed ⟨contract, some attestations, signedCet⟩)).run)
    (closed : Asks allowed (rest (.closed
      (closedContract manager contract (some attestations) signedCet))).run) :
    Asks allowed (closeContract manager contract signedCet attestations >>= rest).run := by
  unfold closeContract
  rw [bind_assoc]
  refine asks_run_bind (asks_perform confirms) fun confirmations => ?_
  split_ifs
  · rw [bind_assoc]
    exact asks_run_bind (asks_perform sends) fun _ => preClosed
  · exact preClosed
  · exact closed

theorem asks_checkRefund (contract : SignedContract) :
    Asks (Concerns contract.acceptedContract) (checkRefund contract).run := by
  unfold checkRefund
  refine asks_run_bind (asks_ask rfl) fun unixtime => ?_
  dsimp only
  split_ifs
  · refine asks_run_bind (asks_ask rfl) fun confirmations => asks_run_bind ?_ fun _ => ?_
    · split_ifs
      · exact asks_run_bind (asks_ask rfl) fun refund => asks_ask trivial
      · exact asks_pure _
    · refine asks_ask ⟨rfl, rfl, ?_⟩
      rintro _ ⟨⟩
  · exact asks_pure _

theorem asks_checkConfirmedContract (manager : Manager) (contract : SignedContract) :
    Asks (Concerns contract.acceptedContract)
      (checkConfirmedContract manager contract).run := by
  unfold checkConfirmedContract
  have looks : Asks (Concerns contract.acceptedContract)
      (getClosableContractInfo manager contract).run := by
    refine (asks_getClosableContractInfo manager contract).mono ?_
    rintro _ ⟨oracle, eventId, rfl⟩
    rfl
  refine asks_run_lift_bind looks fun found => ?_
  have refund : Asks (Concerns contract.acceptedContract) (do
      let _ ← checkRefund contract
      return false : ManagerM Bool).run :=
    asks_run_bind (asks_checkRefund contract) fun _ => asks_pure _
  cases found with
  | error error => exact refund
  | ok found =>
      cases found with
      | none => exact refund
      | some found =>
          obtain ⟨info, adaptor, attestations⟩ := found
          refine asks_run_bind (asks_ask rfl) fun cet => ?_
          refine asks_closeContract_bind _ _ _ _ ?_ ?_ ?_ ?_
          · rfl
          · trivial
          · refine asks_run_bind (asks_ask ⟨rfl, rfl, ?_⟩) fun _ => asks_pure _
            rintro _ ⟨⟩
            rfl
          · refine asks_run_bind (asks_ask ⟨rfl, rfl, ?_⟩) fun _ => asks_pure _
            rintro _ ⟨⟩

theorem asks_checkPreclosedContract (manager : Manager) (contract : PreClosedContract) :
    Asks (Concerns contract.signedContract.acceptedContract)
      (checkPreclosedContract manager contract).run := by
  unfold checkPreclosedContract
  refine asks_run_bind (asks_ask rfl) fun confirmations => ?_
  split_ifs
  · refine asks_run_bind (asks_ask ⟨rfl, rfl, ?_⟩) fun _ => asks_pure _
    rintro _ ⟨⟩
  · exact asks_pure _

/-- Not the update of a contract that moves to its final identifier. -/
def Stays : WalletRequest → Prop
  | .updateContract contract => contract.isMoved = false
  | _ => True

theorem isMoved_of_stays {request : WalletRequest} (stays : Stays request) :
    ∀ contract, request = .updateContract contract → contract.isMoved = false := by
  rintro contract rfl
  exact stays

theorem stays_of_concerns {accepted : AcceptedContract} {request : WalletRequest}
    (concerns : Concerns accepted request) : Stays request := by
  cases request with
  | updateContract contract => exact concerns.1
  | _ => trivial

theorem asks_checkEach_stays {γ : Type} {check : γ → ManagerM Bool}
    {accepted : γ → AcceptedContract}
    (concerns : ∀ contract, Asks (Concerns (accepted contract)) (check contract).run)
    (contracts : List γ) : Asks Stays (checkEach check accepted contracts).run := by
  induction contracts with
  | nil => exact asks_pure _
  | cons contract rest ih =>
      unfold checkEach
      have checked := (concerns contract).mono fun _ => stays_of_concerns
      refine asks_run_lift_bind checked fun moved => ?_
      rcases moved with error | _ | _
      · exact ih
      · exact ih
      · dsimp only
        cases (accepted contract).offeredContract.eventId? with
        | none => exact asks_pure _
        | some eventId => exact asks_run_bind ih fun _ => asks_pure _

theorem asks_periodicCheck (manager : Manager) : Asks Stays (periodicCheck manager).run := by
  unfold periodicCheck checkSignedContracts checkConfirmedContracts checkPreclosedContracts
  refine asks_run_bind (asks_run_bind (asks_perform trivial) fun contracts =>
    asks_checkEach_stays asks_checkSignedContract contracts) fun _ => ?_
  refine asks_run_bind (asks_run_bind (asks_perform trivial) fun contracts =>
    asks_checkEach_stays (asks_checkConfirmedContract manager) _) fun _ => ?_
  refine asks_run_bind (asks_run_bind (asks_perform trivial) fun contracts =>
    asks_checkEach_stays (asks_checkPreclosedContract manager) contracts) fun _ => ?_
  exact asks_pure _

/-! ## Phases -/

/-- The states of the records that the periodic check lists. -/
def checkedStates : List String :=
  ["signed", "confirmed", "pre_closed"]

/-- One of the three loops: the state of the records that it lists, the contracts
among them that it checks, and their check. -/
structure Phase where
  Listed : Type
  state : String
  known : state ∈ checkedStates
  variant : DlcContract → Option Listed
  keeps : Listed → Bool
  check : Listed → ManagerM Bool
  accepted : Listed → AcceptedContract
  watched : ∀ contract value, variant contract = some value →
    contract.acceptedContract? = some (accepted value)
  concerns : ∀ value, Asks (Concerns (accepted value)) (check value).run

def signedPhase : Phase where
  Listed := SignedContract
  state := "signed"
  known := by decide
  variant := DlcContract.signed?
  keeps _ := true
  check := checkSignedContract
  accepted := (·.acceptedContract)
  watched := by rintro (_ | _ | _ | _ | _ | _ | _ | _ | _ | _) _ ⟨⟩; rfl
  concerns := asks_checkSignedContract

def confirmedPhase (manager : Manager) : Phase where
  Listed := SignedContract
  state := "confirmed"
  known := by decide
  variant := DlcContract.confirmed?
  keeps contract := contract.channelId.isNone
  check := checkConfirmedContract manager
  accepted := (·.acceptedContract)
  watched := by rintro (_ | _ | _ | _ | _ | _ | _ | _ | _ | _) _ ⟨⟩; rfl
  concerns := asks_checkConfirmedContract manager

def preclosedPhase (manager : Manager) : Phase where
  Listed := PreClosedContract
  state := "pre_closed"
  known := by decide
  variant := DlcContract.preClosed?
  keeps _ := true
  check := checkPreclosedContract manager
  accepted := (·.signedContract.acceptedContract)
  watched := by rintro (_ | _ | _ | _ | _ | _ | _ | _ | _ | _) _ ⟨⟩; rfl
  concerns := asks_checkPreclosedContract manager

namespace Phase

variable (phase : Phase) (provider : AsyncStorageApiProvider)

/-- The contract of a row, if the phase checks it. -/
def listed? (row : Storage.Contract) : Option phase.Listed :=
  if row.key = provider.publicKey ∧ row.state = phase.state then
    ((provider.contract? row).bind phase.variant).filter phase.keeps
  else none

/-- The outcome of the check of one contract, and its record after it. -/
def view (around : Surroundings) (contract : phase.Listed) (row : Storage.Contract) :
    Except DlcError Bool × Storage.Contract :=
  (eval (serveRow provider around) (phase.check contract).run row).2

/-- What a phase makes of one record. -/
def checked (around : Surroundings) (row : Storage.Contract) :
    Except DlcError Bool × Storage.Contract :=
  match phase.listed? provider row with
  | some contract => phase.view provider around contract row
  | none => (.ok false, row)

/-- What the checks of some contracts make of the database that they start with. -/
structure Advances (around : Surroundings) (contracts : List phase.Listed)
    (start final : Storage.Database) : Prop where
  checked : ∀ contract ∈ contracts, ∀ row,
    start.contracts.find? (recordKey provider (phase.accepted contract)) = some row →
      final.contracts.find? (recordKey provider (phase.accepted contract)) =
        some (phase.view provider around contract row).2
  others : ∀ key, (∀ contract ∈ contracts,
      recordKey provider (phase.accepted contract) ≠ key) →
    final.contracts.find? key = start.contracts.find? key

variable {phase provider}

/-- The check of a contract, and then those of contracts with other records. -/
theorem Advances.cons {around : Surroundings} {contract : phase.Listed}
    {rest : List phase.Listed} {start middle final : Storage.Database}
    {row : Storage.Contract}
    (found : start.contracts.find? (recordKey provider (phase.accepted contract)) = some row)
    (checked : middle.contracts.find? (recordKey provider (phase.accepted contract)) =
      some (phase.view provider around contract row).2)
    (others : ∀ key, key ≠ recordKey provider (phase.accepted contract) →
      middle.contracts.find? key = start.contracts.find? key)
    (apart : ∀ other ∈ rest, recordKey provider (phase.accepted other) ≠
      recordKey provider (phase.accepted contract))
    (advances : phase.Advances provider around rest middle final) :
    phase.Advances provider around (contract :: rest) start final := by
  constructor
  · intro other member row' found'
    rcases List.mem_cons.mp member with rfl | member
    · obtain rfl := Option.some.inj (found.symm.trans found')
      rw [advances.others _ apart]
      exact checked
    · apply advances.checked other member
      rw [others _ (apart other member)]
      exact found'
  · intro key absent
    rw [advances.others key fun other member => absent other (List.mem_cons_of_mem _ member)]
    exact others key (absent contract (by simp)).symm

/-- The loop over contracts whose records are stored, under events to report. -/
theorem eval_checkEach (around : Nat → Surroundings) {contracts : List phase.Listed}
    {db : Storage.Database} {time : Nat}
    (stored : ∀ contract ∈ contracts, ∃ row,
      db.contracts.find? (recordKey provider (phase.accepted contract)) = some row)
    (distinct : (contracts.map fun contract =>
      recordKey provider (phase.accepted contract)).Nodup)
    (announced : ∀ contract ∈ contracts,
      ((phase.accepted contract).offeredContract.eventId?).isSome = true) :
    ∃ found after,
      (eval (serveRows provider around)
        (checkEach phase.check phase.accepted contracts).run (db, time)).2 =
          (.ok found, after, time) ∧
      phase.Advances provider (around time) contracts db after ∧
      ((∀ contract ∈ contracts, ∀ row,
        db.contracts.find? (recordKey provider (phase.accepted contract)) = some row →
          (phase.view provider (around time) contract row).1 ≠ .ok true) → found = []) := by
  induction contracts generalizing db with
  | nil => exact ⟨[], db, rfl, ⟨nofun, fun _ _ => rfl⟩, fun _ => rfl⟩
  | cons contract rest ih =>
      rw [List.map_cons, List.nodup_cons] at distinct
      obtain ⟨row, found⟩ := stored contract (by simp)
      have start : Tracks db time (recordKey provider (phase.accepted contract))
          (db, time) row := ⟨rfl, found, fun _ _ => rfl⟩
      obtain ⟨same, tracks⟩ := (simulates_serveRow provider around
        (phase.accepted contract) db time).eval (phase.concerns contract) start
      rcases outcome : (eval (serveRows provider around)
        (phase.check contract).run (db, time)).2 with ⟨moved, middle, now⟩
      rw [outcome] at same tracks
      obtain ⟨rfl, moved', others⟩ := tracks
      dsimp only at same moved' others
      have apart : ∀ other ∈ rest, recordKey provider (phase.accepted other) ≠
          recordKey provider (phase.accepted contract) := fun other member equal =>
        distinct.1 (List.mem_map.mpr ⟨other, member, equal⟩)
      have untouched : ∀ other ∈ rest,
          middle.contracts.find? (recordKey provider (phase.accepted other)) =
            db.contracts.find? (recordKey provider (phase.accepted other)) :=
        fun other member => others _ (apart other member)
      obtain ⟨reports, after, evaluated, advances, quiet⟩ := ih
        (fun other member => untouched other member ▸
          stored other (List.mem_cons_of_mem _ member))
        distinct.2 (fun other member => announced other (List.mem_cons_of_mem _ member))
      have advancesAll := advances.cons found moved' others apart
      have quietRest (silent : ∀ other ∈ contract :: rest, ∀ row,
          db.contracts.find? (recordKey provider (phase.accepted other)) = some row →
            (phase.view provider (around now) other row).1 ≠ .ok true) : reports = [] :=
        quiet fun other member row found => silent other (List.mem_cons_of_mem _ member)
          row (untouched other member ▸ found)
      obtain ⟨eventId, event⟩ := Option.isSome_iff_exists.mp (announced contract (by simp))
      unfold checkEach
      rw [ExceptT.run_bind_lift, eval_bind_snd, outcome]
      cases moved with
      | error error => exact ⟨reports, after, evaluated, advancesAll, quietRest⟩
      | ok moved =>
          cases moved with
          | false => exact ⟨reports, after, evaluated, advancesAll, quietRest⟩
          | true =>
              refine ⟨((phase.accepted contract).contractId, eventId) :: reports, after,
                ?_, advancesAll, fun silent => ?_⟩
              · dsimp only
                rw [event, ExceptT.run_bind, eval_bind_snd, evaluated]
                rfl
              · exact absurd same.symm (silent contract (by simp) row found)

end Phase

/-- A record in one of these states can be read, and if its contract is to be
checked, the record is stored under the contract's identifier and there is an event
to report it under. -/
def Legible (provider : AsyncStorageApiProvider) (row : Storage.Contract) : Prop :=
  row.state ∈ checkedStates →
    ∃ contract ∈ provider.contract? row, ∀ accepted ∈ contract.acceptedContract?,
      row.uuid = getContractIdString accepted.contractId ∧
        accepted.offeredContract.eventId?.isSome = true

instance (provider : AsyncStorageApiProvider) (row : Storage.Contract) :
    Decidable (Legible provider row) :=
  inferInstanceAs (Decidable (_ → _))

/-- All records of the provider are legible. -/
def LegibleRows (provider : AsyncStorageApiProvider) (db : Storage.Database) : Prop :=
  ∀ row ∈ db.contracts.rows, row.key = provider.publicKey → Legible provider row

instance (provider : AsyncStorageApiProvider) (db : Storage.Database) :
    Decidable (LegibleRows provider db) :=
  inferInstanceAs (Decidable (∀ row ∈ db.contracts.rows, _ → _))

namespace Phase

variable {phase : Phase} {provider : AsyncStorageApiProvider}

/-- A listed contract is that of its row. -/
theorem listed?_eq_some {row : Storage.Contract} {contract : phase.Listed}
    (listed : phase.listed? provider row = some contract) :
    row.key = provider.publicKey ∧ row.state = phase.state ∧
      ∃ stored, provider.contract? row = some stored ∧
        phase.variant stored = some contract := by
  unfold listed? at listed
  split_ifs at listed with ours
  obtain ⟨found, _⟩ := Option.filter_eq_some_iff.mp listed
  obtain ⟨stored, decoded, variant⟩ := Option.bind_eq_some_iff.mp found
  exact ⟨ours.1, ours.2, stored, decoded, variant⟩

theorem decode_of_contract? {row : Storage.Contract} {stored : DlcContract}
    (decoded : provider.contract? row = some stored) :
    provider.decode row.content = .ok stored := by
  unfold AsyncStorageApiProvider.contract? at decoded
  cases content : provider.decode row.content with
  | ok contract =>
      rw [content] at decoded
      exact congrArg Except.ok (Option.some.inj decoded)
  | error error =>
      rw [content] at decoded
      cases decoded

theorem Legible.listed {row : Storage.Contract} {contract : phase.Listed}
    (legible : row.key = provider.publicKey → Legible provider row)
    (listed : phase.listed? provider row = some contract) :
    recordKey provider (phase.accepted contract) = row.uniqueKey ∧
      (phase.accepted contract).offeredContract.eventId?.isSome = true := by
  obtain ⟨ours, inState, stored, decoded, variant⟩ := listed?_eq_some listed
  obtain ⟨contract', decoded', watched⟩ := legible ours (inState ▸ phase.known)
  obtain rfl := Option.some.inj (decoded'.symm.trans decoded)
  obtain ⟨uuid, event⟩ := watched _ (phase.watched _ _ variant)
  exact ⟨by rw [recordKey, Storage.Contract.uniqueKey, ours, uuid], event⟩

/-- A phase advances each record by itself. -/
theorem eval_checkEach_listed (phase : Phase) (around : Nat → Surroundings)
    {db : Storage.Database} (time : Nat) (legible : LegibleRows provider db) :
    ∃ found after,
      (eval (serveRows provider around)
        (checkEach phase.check phase.accepted
          (db.contracts.rows.filterMap (phase.listed? provider))).run (db, time)).2 =
          (.ok found, after, time) ∧
      (∀ key, after.contracts.find? key =
        (db.contracts.find? key).map fun row =>
          (phase.checked provider (around time) row).2) ∧
      ((∀ row ∈ db.contracts.rows,
        (phase.checked provider (around time) row).1 ≠ .ok true) → found = []) := by
  have source {contract : phase.Listed}
      (member : contract ∈ db.contracts.rows.filterMap (phase.listed? provider)) :
      ∃ row, db.contracts.find? (recordKey provider (phase.accepted contract)) =
          some row ∧ row ∈ db.contracts.rows ∧
        phase.listed? provider row = some contract ∧
        (phase.accepted contract).offeredContract.eventId?.isSome = true := by
    obtain ⟨row, stored, listed⟩ := List.mem_filterMap.mp member
    obtain ⟨sameKey, event⟩ := Legible.listed (legible row stored) listed
    exact ⟨row, sameKey ▸ UniqueTable.mem_rows_iff.mp stored, stored, listed, event⟩
  have distinct : ((db.contracts.rows.filterMap (phase.listed? provider)).map
      fun contract => recordKey provider (phase.accepted contract)).Nodup := by
    have unique := List.pairwise_map.mp db.contracts.unique
    refine List.pairwise_map.mpr (List.pairwise_filterMap.mpr ?_)
    refine unique.imp_of_mem fun {first second} firstMem secondMem different => ?_
    intro contract listed other listed'
    rw [(Legible.listed (legible first firstMem) listed).1,
      (Legible.listed (legible second secondMem) listed').1]
    exact different
  obtain ⟨found, after, evaluated, advances, quiet⟩ := eval_checkEach around
    (fun contract member => (source member).imp fun row holds => holds.1) distinct
    (fun contract member => (source member).elim fun row holds => holds.2.2.2)
  refine ⟨found, after, evaluated, fun key => ?_, fun silent => quiet ?_⟩
  · have absent (unlisted : ∀ row, db.contracts.find? key = some row →
        phase.listed? provider row = none) :
        after.contracts.find? key = db.contracts.find? key := by
      refine advances.others key fun contract member same => ?_
      obtain ⟨row, stored, _, listed, _⟩ := source member
      rw [unlisted row (same ▸ stored)] at listed
      cases listed
    cases stored : db.contracts.find? key with
    | none => rw [absent (by simp [stored]), stored, Option.map_none]
    | some row =>
        obtain ⟨member, rfl⟩ := UniqueTable.find?_eq_some_iff.mp stored
        rw [Option.map_some, checked]
        cases listed : phase.listed? provider row with
        | none =>
            rw [absent, stored]
            rintro _ found'
            obtain rfl := Option.some.inj (stored.symm.trans found')
            exact listed
        | some contract =>
            have sameKey := (Legible.listed (legible row member) listed).1
            rw [← sameKey]
            exact advances.checked contract (List.mem_filterMap.mpr ⟨row, member, listed⟩)
              row (sameKey ▸ stored)
  · intro contract member row stored
    obtain ⟨row', stored', inRows, listed, _⟩ := source member
    obtain rfl := Option.some.inj (stored.symm.trans stored')
    have moved := silent row inRows
    rw [checked, listed] at moved
    exact moved

/-- The record of a contract stays legible, under its key, in its check. -/
theorem view_legible (roundTrip : provider.RoundTrip) (around : Surroundings)
    {contract : phase.Listed} {row : Storage.Contract}
    (sameKey : recordKey provider (phase.accepted contract) = row.uniqueKey)
    (event : (phase.accepted contract).offeredContract.eventId?.isSome = true)
    (legible : Legible provider row) :
    (phase.view provider around contract row).2.uniqueKey = row.uniqueKey ∧
      Legible provider (phase.view provider around contract row).2 := by
  let Kept (current : Storage.Contract) : Prop :=
    current.uniqueKey = row.uniqueKey ∧ Legible provider current
  have preserved (current : Storage.Contract) (request : WalletRequest)
      (concerned : Concerns (phase.accepted contract) request) (kept : Kept current) :
      Kept (serveRow provider around current request).2 := by
    cases request with
    | updateContract target =>
        have updated : Kept (updateRow provider target current).2 := by
          obtain ⟨_, sameId, watched⟩ := concerned
          unfold updateRow
          cases written : provider.encode target with
          | error error => exact kept
          | ok content =>
              have uuid : getContractIdString target.getId =
                  getContractIdString (phase.accepted contract).contractId := by
                rw [sameId]
              refine ⟨?_, fun _ => ⟨target, contract?_eq (roundTrip target content written), ?_⟩⟩
              · rw [← sameKey, recordKey, ← uuid]
                rfl
              · intro accepted isWatched
                obtain rfl := watched accepted isWatched
                exact ⟨uuid, event⟩
        simp only [serveRow]
        cases around.link (.updateContract target) with
        | up => exact updated
        | down => exact kept
        | replyLost => exact updated
    | _ => exact kept
  have initially : Kept row := ⟨rfl, legible⟩
  exact (phase.concerns contract).eval_invariant preserved initially

theorem checked_legible (roundTrip : provider.RoundTrip) (around : Surroundings)
    {row : Storage.Contract}
    (legible : row.key = provider.publicKey → Legible provider row) :
    (phase.checked provider around row).2.uniqueKey = row.uniqueKey ∧
      ((phase.checked provider around row).2.key = provider.publicKey →
        Legible provider (phase.checked provider around row).2) := by
  unfold checked
  cases listed : phase.listed? provider row with
  | none => exact ⟨rfl, legible⟩
  | some contract =>
      obtain ⟨sameKey, event⟩ := Legible.listed legible listed
      obtain ⟨kept, after⟩ := view_legible roundTrip around sameKey event
        (legible (listed?_eq_some listed).1)
      exact ⟨kept, fun _ => after⟩

/-- Rows that were advanced one by one are legible again. -/
theorem legibleRows_checked (roundTrip : provider.RoundTrip) (around : Surroundings)
    {db after : Storage.Database} (legible : LegibleRows provider db)
    (advanced : ∀ key, after.contracts.find? key =
      (db.contracts.find? key).map fun row => (phase.checked provider around row).2) :
    LegibleRows provider after := by
  intro row member
  have stored := UniqueTable.mem_rows_iff.mp member
  rw [advanced] at stored
  obtain ⟨old, found, rfl⟩ := Option.map_eq_some_iff.mp stored
  obtain ⟨oldMem, _⟩ := UniqueTable.find?_eq_some_iff.mp found
  exact (checked_legible roundTrip around (legible old oldMem)).2

/-- What the listing of a phase returns. -/
def listing (phase : Phase) (provider : AsyncStorageApiProvider)
    (db : Storage.Database) : List phase.Listed :=
  (((db.contractsOf provider.publicKey).filter fun row =>
    row.state = phase.state).filterMap provider.contract?).filterMap phase.variant

/-- The contracts that a phase checks are those of the rows that it lists. -/
theorem filter_listing (phase : Phase) (provider : AsyncStorageApiProvider)
    (db : Storage.Database) :
    (phase.listing provider db).filter phase.keeps =
      db.contracts.rows.filterMap (phase.listed? provider) := by
  unfold listing Storage.Database.contractsOf UniqueTable.select
  generalize db.contracts.rows = rows
  induction rows with
  | nil => rfl
  | cons row rows ih =>
      rw [List.filterMap_cons, ← ih, listed?]
      by_cases ours : row.key = provider.publicKey
      · by_cases inState : row.state = phase.state
        · cases stored : provider.contract? row with
          | none => simp [ours, inState, stored]
          | some contract =>
              cases variant : phase.variant contract with
              | none => simp [ours, inState, stored, variant]
              | some value =>
                  cases kept : phase.keeps value <;>
                    simp [ours, inState, stored, variant, kept, Option.filter]
        · simp [ours, inState]
      · simp [ours]

/-- What one phase comes to: nothing if the listing fails, and otherwise every record
is advanced by itself. -/
structure Outcome (phase : Phase) (provider : AsyncStorageApiProvider) (link : Link)
    (around : Surroundings) (db : Storage.Database) (time : Nat)
    (outcome : Except DlcError (List Report) × Storage.Database × Nat) : Prop where
  time : outcome.2.2 = time + 1
  failed : link ≠ .up →
    (∃ error, outcome.1 = .error error) ∧ outcome.2.1 = db
  checked : link = .up →
    (∃ found, outcome.1 = .ok found ∧
      ((∀ row ∈ db.contracts.rows,
        (phase.checked provider around row).1 ≠ .ok true) → found = [])) ∧
    ∀ key, outcome.2.1.contracts.find? key =
      (db.contracts.find? key).map fun row => (phase.checked provider around row).2

/-- The rule of a phase, given what its listing returns. -/
theorem outcome_of_listing (phase : Phase) (around : Nat → Surroundings)
    {db : Storage.Database} {time : Nat} (legible : LegibleRows provider db)
    (listing : WalletRequest) (select : listing.Reply → List phase.Listed)
    (reply : listing.Reply)
    (served : serveRows provider around (db, time) listing =
      let outcome := ((around time).link listing).pass db (.ok reply, db)
      (outcome.1, outcome.2, time + 1))
    (selected : select reply = db.contracts.rows.filterMap (phase.listed? provider)) :
    Outcome phase provider ((around time).link listing) (around (time + 1)) db time
      (eval (serveRows provider around)
        (do let contracts ← ask listing
            checkEach phase.check phase.accepted (select contracts) :
              ManagerM (List Report)).run (db, time)).2 := by
  rw [ExceptT.run_bind, eval_bind_snd]
  have asked : (eval (serveRows provider around) (ask listing).run (db, time)).2 =
      serveRows provider around (db, time) listing := rfl
  rw [asked, served]
  cases (around time).link listing with
  | up =>
      obtain ⟨found, after, evaluated, advanced, quiet⟩ :=
        eval_checkEach_listed phase around (time + 1) legible
      simp only [Link.pass, selected, evaluated]
      exact ⟨rfl, nofun, fun _ => ⟨⟨found, rfl, quiet⟩, advanced⟩⟩
  | down => exact ⟨rfl, fun _ => ⟨⟨_, rfl⟩, rfl⟩, nofun⟩
  | replyLost => exact ⟨rfl, fun _ => ⟨⟨_, rfl⟩, rfl⟩, nofun⟩

end Phase

/-! ## The periodic check -/

section PeriodicCheck

variable {provider : AsyncStorageApiProvider} {db : Storage.Database} {time : Nat}

private theorem delivered_listing (phase : Phase) (legible : LegibleRows provider db) :
    delivered (provider.contractsOf phase.state phase.variant) db =
      (.ok (phase.listing provider db), db) :=
  delivered_contractsOf fun row member ours inState =>
    (legible row member ours (inState ▸ phase.known)).imp fun _ holds =>
      Phase.decode_of_contract? holds.1

theorem outcome_checkSignedContracts (around : Nat → Surroundings)
    (legible : LegibleRows provider db) :
    signedPhase.Outcome provider ((around time).link .getSignedContracts)
      (around (time + 1)) db time
      (eval (serveRows provider around) checkSignedContracts.run (db, time)).2 := by
  refine Phase.outcome_of_listing signedPhase around legible .getSignedContracts
    (fun contracts => contracts) (signedPhase.listing provider db) ?_ ?_
  · exact congrArg (fun outcome => let outcome := Link.pass _ db outcome
      (outcome.1, outcome.2, time + 1)) (delivered_listing signedPhase legible)
  · rw [← Phase.filter_listing]
    exact (List.filter_true _).symm

theorem outcome_checkConfirmedContracts (manager : Manager) (around : Nat → Surroundings)
    (legible : LegibleRows provider db) :
    (confirmedPhase manager).Outcome provider ((around time).link .getConfirmedContracts)
      (around (time + 1)) db time
      (eval (serveRows provider around) (checkConfirmedContracts manager).run
        (db, time)).2 := by
  refine Phase.outcome_of_listing (confirmedPhase manager) around legible
    .getConfirmedContracts (List.filter fun contract => contract.channelId.isNone)
    ((confirmedPhase manager).listing provider db) ?_
    (Phase.filter_listing (confirmedPhase manager) provider db)
  exact congrArg (fun outcome => let outcome := Link.pass _ db outcome
    (outcome.1, outcome.2, time + 1)) (delivered_listing (confirmedPhase manager) legible)

theorem outcome_checkPreclosedContracts (manager : Manager) (around : Nat → Surroundings)
    (legible : LegibleRows provider db) :
    (preclosedPhase manager).Outcome provider ((around time).link .getPreclosedContracts)
      (around (time + 1)) db time
      (eval (serveRows provider around) (checkPreclosedContracts manager).run
        (db, time)).2 := by
  refine Phase.outcome_of_listing (preclosedPhase manager) around legible
    .getPreclosedContracts (fun contracts => contracts)
    ((preclosedPhase manager).listing provider db) ?_ ?_
  · exact congrArg (fun outcome => let outcome := Link.pass _ db outcome
      (outcome.1, outcome.2, time + 1)) (delivered_listing (preclosedPhase manager) legible)
  · rw [← Phase.filter_listing]
    exact (List.filter_true _).symm

/-- What a periodic check makes of one record. -/
def checkedRow (manager : Manager) (provider : AsyncStorageApiProvider)
    (around : Nat → Surroundings) (row : Storage.Contract) : Storage.Contract :=
  if (around 0).link .getSignedContracts = .up then
    let row := (signedPhase.checked provider (around 1) row).2
    if (around 1).link .getConfirmedContracts = .up then
      let row := ((confirmedPhase manager).checked provider (around 2) row).2
      if (around 2).link .getPreclosedContracts = .up then
        ((preclosedPhase manager).checked provider (around 3) row).2
      else row
    else row
  else row

/-- A phase of a longer program: it fails and the program ends, or the program goes on
with the records advanced. -/
theorem Phase.Outcome.bind {phase : Phase} {link : Link} {surroundings : Surroundings}
    {around : Nat → Surroundings} {program : ManagerM (List Report)} {α : Type}
    {rest : List Report → ManagerM α}
    (outcome : phase.Outcome provider link surroundings db time
      (eval (serveRows provider around) program.run (db, time)).2) :
    (link ≠ .up ∧ ∃ error,
      (eval (serveRows provider around) (program >>= rest).run (db, time)).2 =
        (.error error, db, time + 1)) ∨
    link = .up ∧ ∃ found after,
      (eval (serveRows provider around) (program >>= rest).run (db, time)).2 =
        (eval (serveRows provider around) (rest found).run (after, time + 1)).2 ∧
      ((∀ row ∈ db.contracts.rows,
        (phase.checked provider surroundings row).1 ≠ .ok true) → found = []) ∧
      ∀ key, after.contracts.find? key =
        (db.contracts.find? key).map fun row =>
          (phase.checked provider surroundings row).2 := by
  rw [ExceptT.run_bind, eval_bind_snd]
  rcases evaluated : (eval (serveRows provider around) program.run (db, time)).2 with
    ⟨result, after, now⟩
  rw [evaluated] at outcome
  obtain ⟨rfl, failed, checked⟩ := outcome
  by_cases up : link = .up
  · obtain ⟨⟨found, rfl, quiet⟩, advanced⟩ := checked up
    exact .inr ⟨up, found, after, rfl, quiet, advanced⟩
  · obtain ⟨⟨error, rfl⟩, rfl⟩ := failed up
    exact .inl ⟨up, error, rfl⟩

/-- A periodic check advances each record by itself. -/
theorem find?_periodicCheck (roundTrip : provider.RoundTrip) (manager : Manager)
    (around : Nat → Surroundings) (legible : LegibleRows provider db)
    (key : String × String) :
    (eval (serveRows provider around) (periodicCheck manager).run
        (db, 0)).2.2.1.contracts.find? key =
      (db.contracts.find? key).map (checkedRow manager provider around) := by
  unfold periodicCheck checkedRow
  rcases (outcome_checkSignedContracts around legible).bind with
    ⟨down, error, evaluated⟩ | ⟨up, first, after, evaluated, -, signed⟩
  · rw [evaluated]
    simp [down]
  rw [evaluated]
  simp only [up, if_true]
  have legible := Phase.legibleRows_checked roundTrip (around 1) legible signed
  rcases (outcome_checkConfirmedContracts manager around legible).bind with
    ⟨down, error, evaluated⟩ | ⟨up, second, after, evaluated, -, confirmed⟩
  · rw [evaluated, signed]
    simp [down]
  rw [evaluated]
  simp only [up, if_true]
  have legible := Phase.legibleRows_checked roundTrip (around 2) legible confirmed
  rcases (outcome_checkPreclosedContracts manager around legible).bind with
    ⟨down, error, evaluated⟩ | ⟨up, third, after, evaluated, -, preclosed⟩
  · rw [evaluated, confirmed, signed, Option.map_map]
    simp only [down, if_false]
    rfl
  rw [evaluated]
  change after.contracts.find? key = _
  rw [preclosed, confirmed, signed, Option.map_map, Option.map_map]
  simp only [up, if_true]
  rfl

/-- A record stays legible in a periodic check. -/
theorem checkedRow_legible (roundTrip : provider.RoundTrip) (manager : Manager)
    (around : Nat → Surroundings) {row : Storage.Contract}
    (legible : row.key = provider.publicKey → Legible provider row) :
    (checkedRow manager provider around row).key = provider.publicKey →
      Legible provider (checkedRow manager provider around row) := by
  have signed := (signedPhase.checked_legible roundTrip (around 1) legible).2
  have confirmed := ((confirmedPhase manager).checked_legible roundTrip (around 2) signed).2
  have preclosed := ((preclosedPhase manager).checked_legible roundTrip (around 3)
    confirmed).2
  unfold checkedRow
  split_ifs
  · exact preclosed
  · exact confirmed
  · exact signed
  · exact legible

theorem legibleRows_periodicCheck (roundTrip : provider.RoundTrip) (manager : Manager)
    (around : Nat → Surroundings) (legible : LegibleRows provider db) :
    LegibleRows provider (eval (serveRows provider around) (periodicCheck manager).run
      (db, 0)).2.2.1 := by
  intro row member
  have stored := UniqueTable.mem_rows_iff.mp member
  rw [find?_periodicCheck roundTrip manager around legible] at stored
  obtain ⟨old, found, rfl⟩ := Option.map_eq_some_iff.mp stored
  have oldMem := (UniqueTable.find?_eq_some_iff.mp found).1
  exact checkedRow_legible roundTrip manager around (legible old oldMem)

end PeriodicCheck

/-- Every contract that is to be checked has an event to report it under. -/
def Announced (provider : AsyncStorageApiProvider) (db : Storage.Database) : Prop :=
  ∀ row ∈ db.contracts.rows, row.key = provider.publicKey →
    ∀ contract ∈ provider.contract? row, ∀ accepted ∈ contract.acceptedContract?,
      accepted.offeredContract.eventId?.isSome = true

instance (provider : AsyncStorageApiProvider) (db : Storage.Database) :
    Decidable (Announced provider db) :=
  inferInstanceAs (Decidable (∀ row ∈ db.contracts.rows, _ → _))

/-- Coherent records of announced contracts are legible. -/
theorem legibleRows_of_coherent {provider : AsyncStorageApiProvider}
    {db : Storage.Database} (coherent : provider.CoherentRows db)
    (announced : Announced provider db) : LegibleRows provider db := by
  intro row member ours _
  obtain ⟨contract, decoded, uuid, _⟩ := coherent row member ours
  have held := contract?_eq decoded
  refine ⟨contract, held, fun accepted watched => ?_⟩
  rw [uuid, (eventId?_of_accepted watched).1]
  exact ⟨rfl, announced row member ours contract held accepted watched⟩

end LinkManager

end DlcStack
