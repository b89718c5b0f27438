import DlcStack.DlcContract

/-!
# The store of contracts

What the `AsyncStorage` trait keeps: one contract for each identifier.  Storing
an accepted or signed contract also removes the record under its temporary
identifier; any other update replaces a record that exists.
-/

namespace DlcStack

abbrev ContractStore := UniqueTable DlcContract ContractId DlcContract.getId

namespace ContractStore

/-- `create_contract` -/
def createContract (store : ContractStore) (contract : OfferedContract) :
    Option ContractStore :=
  store.insert (.offered contract)

/-- `update_contract` -/
def updateContract (store : ContractStore) (contract : DlcContract) :
    Option ContractStore :=
  if contract.isMoved then
    some ((store.erase contract.getTemporaryId).put contract)
  else
    store.replace contract

theorem find?_createContract {store after : ContractStore}
    {contract : OfferedContract}
    (created : store.createContract contract = some after) (id : ContractId) :
    after.find? id =
      if id = contract.id then some (.offered contract) else store.find? id :=
  UniqueTable.find?_insert created id

theorem find?_updateContract {store after : ContractStore} {contract : DlcContract}
    (updated : store.updateContract contract = some after) (id : ContractId) :
    after.find? id =
      if id = contract.getId then some contract
      else if contract.isMoved = true ∧ id = contract.getTemporaryId then none
      else store.find? id := by
  unfold updateContract at updated
  split_ifs at updated with moved
  · obtain rfl := Option.some.inj updated
    simp [moved]
  · rw [UniqueTable.find?_replace updated]
    simp [moved]

/-- An update that does not move a contract replaces a record that exists. -/
theorem exists_of_updateContract {store after : ContractStore}
    {contract : DlcContract} (stays : contract.isMoved = false)
    (updated : store.updateContract contract = some after) :
    ∃ old, store.find? contract.getId = some old := by
  simp only [updateContract, stays, Bool.false_eq_true, if_false] at updated
  exact (UniqueTable.replace_eq_some_iff.mp updated).1

/-- The contracts in one state, in any order. -/
def Lists {α : Type} (store : ContractStore) (variant : DlcContract → Option α)
    (contracts : List α) : Prop :=
  contracts.Perm (store.rows.filterMap variant)

end ContractStore

end DlcStack
