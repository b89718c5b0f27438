import DlcStack.AsyncStorageCoherence
import DlcStack.ContractStore

/-!
# The provider as a store of contracts

The records of a provider represent a store of contracts, one record for each contract.
Each call of the provider on the database does to the records what the operation of the
store does to the contracts, and what others do to their own records does nothing.
-/

namespace DlcStack

namespace Clients

open Program

namespace AsyncStorageApiProvider

/-- The record for an identifier. -/
def record? (provider : AsyncStorageApiProvider) (db : Storage.Database) (id : ContractId) :
    Option Storage.Contract :=
  db.contracts.find? (provider.publicKey, getContractIdString id)

/-- The records of the provider are those of the contracts in the store. -/
structure Represents (provider : AsyncStorageApiProvider) (store : ContractStore)
    (db : Storage.Database) : Prop where
  coherent : provider.CoherentRows db
  finds : ∀ id, store.find? id = (provider.record? db id).bind provider.contract?

section Represents

variable {provider : AsyncStorageApiProvider} {store : ContractStore} {db : Storage.Database}
  {id : ContractId} {contract : DlcContract} {content : String} {row : Storage.Contract}

theorem represents_empty (provider : AsyncStorageApiProvider) :
    provider.Represents .empty .empty := by
  refine ⟨fun row member => ?_, fun id => rfl⟩
  cases member

theorem Represents.of_record (represents : provider.Represents store db)
    (found : provider.record? db id = some row) :
    ∃ contract, provider.decode row.content = .ok contract ∧ contract.getId = id ∧
      store.find? id = some contract := by
  obtain ⟨member, key⟩ := UniqueTable.find?_eq_some_iff.mp found
  obtain ⟨owned, uuid⟩ := Prod.mk.inj key
  obtain ⟨contract, decoded, named, -⟩ := represents.coherent row member owned
  refine ⟨contract, decoded, getContractIdString_injective (named.symm.trans uuid), ?_⟩
  rw [represents.finds, found, Option.bind_some, contract?_eq decoded]

theorem Represents.record_none (represents : provider.Represents store db)
    (free : store.find? id = none) : provider.record? db id = none := by
  cases found : provider.record? db id with
  | none => rfl
  | some row =>
      obtain ⟨contract, -, -, stored⟩ := represents.of_record found
      rw [free] at stored
      cases stored

theorem Represents.record_some (represents : provider.Represents store db)
    (found : store.find? id = some contract) :
    ∃ row, provider.record? db id = some row := by
  cases present : provider.record? db id with
  | some row => exact ⟨row, rfl⟩
  | none =>
      rw [represents.finds, present] at found
      cases found

/-- Only the lookups in the store matter. -/
theorem Represents.congr {other : ContractStore} (represents : provider.Represents store db)
    (same : ∀ id, other.find? id = store.find? id) : provider.Represents other db :=
  ⟨represents.coherent, fun id => (same id).trans (represents.finds id)⟩

/-- Only the records of the provider matter. -/
theorem Represents.frame {after : Storage.Database} (represents : provider.Represents store db)
    (same : after.contractsOf provider.publicKey = db.contractsOf provider.publicKey) :
    provider.Represents store after := by
  have ours (db : Storage.Database) (row : Storage.Contract) :
      row ∈ db.contractsOf provider.publicKey ↔
        row ∈ db.contracts.rows ∧ row.key = provider.publicKey := by
    simp [Storage.Database.contractsOf, UniqueTable.select]
  constructor
  · intro row member owned
    have stored := (ours after row).mpr ⟨member, owned⟩
    rw [same] at stored
    exact represents.coherent row ((ours db row).mp stored).1 owned
  · intro id
    have records : provider.record? after id = provider.record? db id := by
      apply Option.ext
      intro row
      unfold record?
      rw [UniqueTable.find?_eq_some_iff, UniqueTable.find?_eq_some_iff]
      constructor
      all_goals
        rintro ⟨member, key⟩
        have owned : row.key = provider.publicKey := congrArg Prod.fst key
      · have stored := (ours after row).mpr ⟨member, owned⟩
        rw [same] at stored
        exact ⟨((ours db row).mp stored).1, key⟩
      · have stored := (ours db row).mpr ⟨member, owned⟩
        rw [← same] at stored
        exact ⟨((ours after row).mp stored).1, key⟩
    rw [records, represents.finds]

/-! ### Listing -/

theorem map_id_filterMap {rows : List Storage.Contract}
    (coherent : ∀ row ∈ rows, provider.CoherentRow row) :
    (rows.filterMap provider.contract?).map (fun contract =>
      getContractIdString contract.getId) = rows.map (·.uuid) := by
  induction rows with
  | nil => rfl
  | cons row rows ih =>
      obtain ⟨contract, decoded, uuid, -⟩ := coherent row (by simp)
      rw [List.filterMap_cons_some (contract?_eq decoded), List.map_cons, List.map_cons, uuid,
        ih fun other member => coherent other (List.mem_cons_of_mem _ member)]

theorem nodup_storedContracts (coherent : provider.CoherentRows db) :
    (provider.storedContracts db).Nodup := by
  have ours : ∀ row ∈ db.contractsOf provider.publicKey,
      row ∈ db.contracts.rows ∧ row.key = provider.publicKey := by
    intro row member
    obtain ⟨stored, owned⟩ := List.mem_filter.mp member
    exact ⟨stored, of_decide_eq_true owned⟩
  have keys : (db.contractsOf provider.publicKey).map Storage.Contract.uniqueKey =
      ((db.contractsOf provider.publicKey).map (·.uuid)).map (Prod.mk provider.publicKey) := by
    rw [List.map_map]
    apply List.map_congr_left
    intro row member
    exact Prod.ext (ours row member).2 rfl
  have unique : ((db.contractsOf provider.publicKey).map Storage.Contract.uniqueKey).Nodup :=
    db.contracts.unique.sublist (List.filter_sublist.map _)
  rw [keys] at unique
  apply List.Nodup.of_map fun contract : DlcContract => getContractIdString contract.getId
  unfold storedContracts
  rw [map_id_filterMap fun row member => coherent row (ours row member).1 (ours row member).2]
  exact unique.of_map _

/-- The contracts in the records are the contracts in the store. -/
theorem Represents.perm (represents : provider.Represents store db) :
    store.rows.Perm (provider.storedContracts db) := by
  refine (List.perm_ext_iff_of_nodup (store.unique.of_map _)
    (nodup_storedContracts represents.coherent)).mpr fun contract => ?_
  rw [UniqueTable.mem_rows_iff, represents.finds, Option.bind_eq_some_iff, storedContracts,
    List.mem_filterMap]
  constructor
  · rintro ⟨row, found, decoded⟩
    obtain ⟨member, key⟩ := UniqueTable.find?_eq_some_iff.mp found
    have owned : row.key = provider.publicKey := congrArg Prod.fst key
    exact ⟨row, List.mem_filter.mpr ⟨member, decide_eq_true owned⟩, decoded⟩
  · rintro ⟨row, member, decoded⟩
    obtain ⟨stored, owned⟩ := List.mem_filter.mp member
    have owned := of_decide_eq_true owned
    obtain ⟨other, decoded', uuid, -⟩ := represents.coherent row stored owned
    obtain rfl : other = contract :=
      Option.some.inj ((contract?_eq decoded').symm.trans decoded)
    exact ⟨row, UniqueTable.find?_eq_some_iff.mpr ⟨stored, Prod.ext owned uuid⟩, decoded⟩

/-! ### Changing -/

theorem key_eq_iff {first second : ContractId} :
    (provider.publicKey, getContractIdString first) =
      (provider.publicKey, getContractIdString second) ↔ first = second := by
  rw [Prod.mk.injEq, getContractIdString_injective.eq_iff]
  simp

theorem record?_create {contracts : UniqueTable Storage.Contract (String × String)
      Storage.Contract.uniqueKey}
    (inserted : db.contracts.insert
      (db.newContractRow (provider.newRequest contract content)) = some contracts)
    (id : ContractId) :
    contracts.find? (provider.publicKey, getContractIdString id) =
      if id = contract.getId then some (db.newContractRow (provider.newRequest contract content))
      else provider.record? db id := by
  rw [UniqueTable.find?_insert inserted]
  exact if_congr key_eq_iff rfl rfl

theorem record?_update (id : ContractId) :
    provider.record? (db.updateContract (provider.updateRequest contract content)).2 id =
      if id = contract.getId then
        (provider.record? db id).map
          (Storage.Database.setContract (provider.updateRequest contract content))
      else provider.record? db id :=
  (Storage.Database.find?_updateContract db _ _).trans (if_congr key_eq_iff rfl rfl)

theorem record?_delete (deleted id : ContractId) :
    provider.record? (db.deleteContract
        ⟨getContractIdString deleted, provider.publicKey⟩).2 id =
      if id = deleted then none else provider.record? db id :=
  (Storage.Database.find?_deleteContract db _ _).trans (if_congr key_eq_iff rfl rfl)

/-- A contract with a new identifier is inserted. -/
theorem Represents.create_new (represents : provider.Represents store db)
    (roundTrip : provider.RoundTrip) (encoded : provider.encode contract = .ok content)
    (free : store.find? contract.getId = none) :
    ∃ row after,
      ((Storage.Call.createContract (provider.newRequest contract content)).respond db).1 =
          ⟨.ok, .contract row⟩ ∧
        store.insert contract = some after ∧
        provider.Represents after
          ((Storage.Call.createContract (provider.newRequest contract content)).respond db).2 := by
  have coherent := represents.coherent.create roundTrip encoded
  have absent : db.contracts.find?
      (db.newContractRow (provider.newRequest contract content)).uniqueKey = none :=
    represents.record_none free
  simp only [Storage.Call.respond, Storage.Handlers.createContract,
    Storage.Database.createContract] at coherent ⊢
  cases inserted : db.contracts.insert
      (db.newContractRow (provider.newRequest contract content)) with
  | none =>
      obtain ⟨old, present⟩ := UniqueTable.insert_eq_none_iff.mp inserted
      rw [absent] at present
      cases present
  | some contracts =>
      rw [inserted] at coherent
      cases stored : store.insert contract with
      | none =>
          obtain ⟨old, present⟩ := UniqueTable.insert_eq_none_iff.mp stored
          rw [free] at present
          cases present
      | some after =>
          refine ⟨_, after, rfl, rfl, coherent, fun id => ?_⟩
          have found := record?_create inserted id
          change _ = (contracts.find? _).bind _
          rw [found, UniqueTable.find?_insert stored, represents.finds]
          split_ifs
          · rw [Option.bind_some, contract?_eq (roundTrip contract content encoded)]
          · rfl

/-- A contract whose identifier is taken is refused. -/
theorem Represents.create_taken (represents : provider.Represents store db)
    {old : DlcContract} (taken : store.find? contract.getId = some old) :
    (∃ text,
      ((Storage.Call.createContract (provider.newRequest contract content)).respond db).1 =
        ⟨.badRequest, .text text⟩) ∧
      store.insert contract = none ∧
      provider.Represents store
        ((Storage.Call.createContract (provider.newRequest contract content)).respond db).2 := by
  obtain ⟨row, found⟩ := represents.record_some taken
  have refused : db.contracts.insert
      (db.newContractRow (provider.newRequest contract content)) = none :=
    UniqueTable.insert_eq_none_iff.mpr ⟨row, found⟩
  simp only [Storage.Call.respond, Storage.Handlers.createContract,
    Storage.Database.createContract, refused]
  exact ⟨⟨_, rfl⟩, UniqueTable.insert_eq_none_iff.mpr ⟨old, taken⟩,
    represents.coherent, represents.finds⟩

/-- The creation of a record inserts the contract or is refused. -/
theorem Represents.create (represents : provider.Represents store db)
    (roundTrip : provider.RoundTrip) (encoded : provider.encode contract = .ok content) :
    (∃ row after,
      ((Storage.Call.createContract (provider.newRequest contract content)).respond db).1 =
          ⟨.ok, .contract row⟩ ∧
        store.insert contract = some after ∧
        provider.Represents after
          ((Storage.Call.createContract
            (provider.newRequest contract content)).respond db).2) ∨
    (∃ text,
      ((Storage.Call.createContract (provider.newRequest contract content)).respond db).1 =
        ⟨.badRequest, .text text⟩) ∧
      store.insert contract = none ∧
      provider.Represents store
        ((Storage.Call.createContract (provider.newRequest contract content)).respond db).2 := by
  cases present : store.find? contract.getId with
  | none => exact .inl (represents.create_new roundTrip encoded present)
  | some old => exact .inr (represents.create_taken present)

/-- A contract that is stored is replaced. -/
theorem Represents.update_stored (represents : provider.Represents store db)
    (roundTrip : provider.RoundTrip) (encoded : provider.encode contract = .ok content)
    {old : DlcContract} (stored : store.find? contract.getId = some old) :
    ∃ after,
      ((Storage.Call.updateContract (provider.updateRequest contract content)).respond db).1 =
          ⟨.ok, .effectedNum 1⟩ ∧
        store.replace contract = some after ∧
        provider.Represents after
          ((Storage.Call.updateContract
            (provider.updateRequest contract content)).respond db).2 := by
  obtain ⟨row, found⟩ := represents.record_some stored
  have counted := Storage.Database.updateContract_fst db
    (provider.updateRequest contract content)
  have present : db.contracts.find? ((provider.updateRequest contract content).key,
      (provider.updateRequest contract content).uuid) = some row := found
  rw [present] at counted
  cases replaced : store.replace contract with
  | none =>
      rw [UniqueTable.replace_eq_none_iff, stored] at replaced
      cases replaced
  | some after =>
      refine ⟨after, ?_, rfl, represents.coherent.update roundTrip encoded, fun id => ?_⟩
      · simp only [Storage.Call.respond, Storage.Handlers.updateContract]
        rw [counted]
        rfl
      · change _ = (provider.record? (db.updateContract _).2 id).bind _
        rw [UniqueTable.find?_replace replaced, record?_update, represents.finds]
        split_ifs with same
        · rw [same, found, Option.map_some, Option.bind_some]
          exact (contract?_eq (roundTrip contract content encoded)).symm
        · rfl

/-- A contract that is not stored is not updated. -/
theorem Represents.update_absent (represents : provider.Represents store db)
    (roundTrip : provider.RoundTrip) (encoded : provider.encode contract = .ok content)
    (absent : store.find? contract.getId = none) :
    ((Storage.Call.updateContract (provider.updateRequest contract content)).respond db).1 =
        ⟨.notFound, .text "No contract found"⟩ ∧
      store.replace contract = none ∧
      provider.Represents store
        ((Storage.Call.updateContract
          (provider.updateRequest contract content)).respond db).2 := by
  have free := represents.record_none absent
  have counted := Storage.Database.updateContract_fst db
    (provider.updateRequest contract content)
  have missing : db.contracts.find? ((provider.updateRequest contract content).key,
      (provider.updateRequest contract content).uuid) = none := free
  rw [missing] at counted
  refine ⟨?_, UniqueTable.replace_eq_none_iff.mpr absent,
    represents.coherent.update roundTrip encoded, fun id => ?_⟩
  · simp only [Storage.Call.respond, Storage.Handlers.updateContract]
    rw [counted]
    rfl
  · change _ = (provider.record? (db.updateContract _).2 id).bind _
    rw [record?_update, represents.finds]
    split_ifs with same
    · rw [same, free]
      rfl
    · rfl

/-- The update of a record replaces the contract or finds none. -/
theorem Represents.update (represents : provider.Represents store db)
    (roundTrip : provider.RoundTrip) (encoded : provider.encode contract = .ok content) :
    (∃ after,
      ((Storage.Call.updateContract (provider.updateRequest contract content)).respond db).1 =
          ⟨.ok, .effectedNum 1⟩ ∧
        store.replace contract = some after ∧
        provider.Represents after
          ((Storage.Call.updateContract
            (provider.updateRequest contract content)).respond db).2) ∨
    ((Storage.Call.updateContract (provider.updateRequest contract content)).respond db).1 =
        ⟨.notFound, .text "No contract found"⟩ ∧
      store.find? contract.getId = none ∧
      provider.Represents store
        ((Storage.Call.updateContract
          (provider.updateRequest contract content)).respond db).2 := by
  cases present : store.find? contract.getId with
  | some old => exact .inl (represents.update_stored roundTrip encoded present)
  | none =>
      obtain ⟨absent, -, kept⟩ := represents.update_absent roundTrip encoded present
      exact .inr ⟨absent, rfl, kept⟩

/-- The record of a contract is deleted. -/
theorem Represents.delete (represents : provider.Represents store db) (id : ContractId) :
    provider.Represents (store.erase id)
      ((Storage.Call.deleteContract
        ⟨getContractIdString id, provider.publicKey⟩).respond db).2 := by
  refine ⟨represents.coherent.delete, fun wanted => ?_⟩
  change _ = (provider.record? (db.deleteContract _).2 wanted).bind _
  rw [UniqueTable.find?_erase, record?_delete, represents.finds]
  split_ifs <;> rfl

end Represents

end AsyncStorageApiProvider

end Clients

end DlcStack
