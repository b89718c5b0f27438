import DlcStack.DlcContract
import DlcStack.StorageApiClient

/-!
# Contracts behind the storage API

`AsyncStorageApiProvider` keeps each contract as one record of the storage API,
under the text of its identifier.  An accepted or signed contract has moved
from its temporary to its final identifier: its update deletes the record under
the former, ignoring the outcome, and then updates or else creates the record
under the latter.  No other record is touched, and a success means that the
final record holds the contract.
-/

namespace DlcStack

namespace Clients

open Program

/-- The provider's key, and the content text of a contract: base64 of its
serialization by the `dlc_manager` crate. -/
structure AsyncStorageApiProvider where
  publicKey : String
  encode : DlcContract → Except String String
  decode : String → Except String DlcContract

abbrev ProviderM := ExceptT DlcError (Program ApiRequest ApiRequest.Answer)

/-- `.map_err(to_storage_error)` -/
def toStorageError {α : Type} (operation : StorageApiClient α) : ProviderM α :=
  ExceptT.mk do
    match ← operation.run with
    | .ok value => return .ok value
    | .error error => return .error (.storageError error.toString)

namespace AsyncStorageApiProvider

/-- `base64::encode(serialize_contract(contract)?)` -/
def content (provider : AsyncStorageApiProvider) (contract : DlcContract) :
    ProviderM String :=
  match provider.encode contract with
  | .ok content => pure content
  | .error error => throw (.ioError error)

/-- The contracts of a list of records; the first that cannot be read is an
error. -/
def decodeAll (provider : AsyncStorageApiProvider) :
    List Storage.Contract → ProviderM (List DlcContract)
  | [] => pure []
  | row :: rows =>
      match provider.decode row.content with
      | .ok contract => do return contract :: (← provider.decodeAll rows)
      | .error error => throw (.storageError error)

def getContractsByState (provider : AsyncStorageApiProvider) (state : String) :
    ProviderM (List DlcContract) := do
  let contractsRes ← toStorageError
    (StorageApiClient.getContracts ⟨provider.publicKey, none, some state⟩)
  provider.decodeAll contractsRes

def getContract (provider : AsyncStorageApiProvider) (id : ContractId) :
    ProviderM (Option DlcContract) := do
  let contractRes ← toStorageError
    (StorageApiClient.getContract provider.publicKey (getContractIdString id))
  match contractRes with
  | some row =>
      match provider.decode row.content with
      | .ok contract => return some contract
      | .error error => throw (.storageError error)
  | none => return none

def getContracts (provider : AsyncStorageApiProvider) :
    ProviderM (List DlcContract) := do
  let contractsRes ← toStorageError
    (StorageApiClient.getContracts ⟨provider.publicKey, none, none⟩)
  provider.decodeAll contractsRes

def createContract (provider : AsyncStorageApiProvider)
    (contract : OfferedContract) : ProviderM Unit := do
  let content ← provider.content (.offered contract)
  let _ ← toStorageError (StorageApiClient.createContract
    ⟨getContractIdString contract.id, "offered", content, provider.publicKey⟩)

def deleteContract (provider : AsyncStorageApiProvider) (id : ContractId) :
    ProviderM Unit :=
  toStorageError (StorageApiClient.deleteContract
    ⟨getContractIdString id, provider.publicKey⟩)

/-- The request that sets the record of a contract. -/
def updateRequest (provider : AsyncStorageApiProvider) (contract : DlcContract)
    (content : String) : Storage.UpdateContract :=
  ⟨getContractIdString contract.getId, some contract.getContractStateStr,
    some content, provider.publicKey⟩

/-- The request that creates the record of a contract. -/
def newRequest (provider : AsyncStorageApiProvider) (contract : DlcContract)
    (content : String) : Storage.NewContract :=
  ⟨getContractIdString contract.getId, contract.getContractStateStr, content,
    provider.publicKey⟩

/-- `update_contract` of an accepted or signed contract. -/
def updateMoved (provider : AsyncStorageApiProvider) (contract : DlcContract) :
    ProviderM Unit := do
  let _ ← ExceptT.lift (provider.deleteContract contract.getTemporaryId).run
  let content ← provider.content contract
  match ← ExceptT.lift (StorageApiClient.updateContract
      (provider.updateRequest contract content)).run with
  | .ok _ => pure ()
  | .error _ =>
      let content ← provider.content contract
      let _ ← toStorageError (StorageApiClient.createContract
        (provider.newRequest contract content))

def updateContract (provider : AsyncStorageApiProvider) (contract : DlcContract) :
    ProviderM Unit :=
  match contract with
  | .accepted _ | .signed _ => provider.updateMoved contract
  | _ => do
      let content ← provider.content contract
      toStorageError (StorageApiClient.updateContract
        (provider.updateRequest contract content))

/-- The contracts of one state, of which only those of its variant are kept. -/
def contractsOf {α : Type} (provider : AsyncStorageApiProvider) (state : String)
    (variant : DlcContract → Option α) : ProviderM (List α) := do
  let contractsPerState ← provider.getContractsByState state
  return contractsPerState.filterMap variant

def getContractOffers (provider : AsyncStorageApiProvider) :
    ProviderM (List OfferedContract) :=
  provider.contractsOf "offered" DlcContract.offered?

def getSignedContracts (provider : AsyncStorageApiProvider) :
    ProviderM (List SignedContract) :=
  provider.contractsOf "signed" DlcContract.signed?

def getConfirmedContracts (provider : AsyncStorageApiProvider) :
    ProviderM (List SignedContract) :=
  provider.contractsOf "confirmed" DlcContract.confirmed?

def getPreclosedContracts (provider : AsyncStorageApiProvider) :
    ProviderM (List PreClosedContract) :=
  provider.contractsOf "pre_closed" DlcContract.preClosed?

/-! ## What an update leaves behind -/

/-- The unique key of the record under the temporary identifier. -/
def temporaryKey (provider : AsyncStorageApiProvider) (contract : DlcContract) :
    String × String :=
  (provider.publicKey, getContractIdString contract.getTemporaryId)

/-- The unique key of the record under the identifier. -/
def finalKey (provider : AsyncStorageApiProvider) (contract : DlcContract) :
    String × String :=
  (provider.publicKey, getContractIdString contract.getId)

/-- The deletion that an update starts with. -/
def deletion (provider : AsyncStorageApiProvider) (contract : DlcContract) :
    Storage.DeleteContract :=
  ⟨getContractIdString contract.getTemporaryId, provider.publicKey⟩

/-- The record holds the contract: its state and its content. -/
def Holds (provider : AsyncStorageApiProvider) (contract : DlcContract)
    (row : Storage.Contract) : Prop :=
  row.state = contract.getContractStateStr ∧
    provider.encode contract = .ok row.content

/-- The final record may have come to hold the contract, and nothing else
happened. -/
structure Stored (provider : AsyncStorageApiProvider) (contract : DlcContract)
    (before after : Storage.Database) : Prop where
  others : ∀ key, key ≠ provider.finalKey contract →
    after.contracts.find? key = before.contracts.find? key
  events : after.events = before.events
  final : after.contracts.find? (provider.finalKey contract) =
      before.contracts.find? (provider.finalKey contract) ∨
    ∃ row, after.contracts.find? (provider.finalKey contract) = some row ∧
      provider.Holds contract row

section Stored

variable {provider : AsyncStorageApiProvider} {contract : DlcContract}
  {first second third : Storage.Database}

theorem Stored.refl (db : Storage.Database) : Stored provider contract db db :=
  ⟨fun _ _ => rfl, rfl, .inl rfl⟩

theorem Stored.trans (front : Stored provider contract first second)
    (back : Stored provider contract second third) :
    Stored provider contract first third where
  others := fun key different =>
    (back.others key different).trans (front.others key different)
  events := back.events.trans front.events
  final := by
    rcases back.final with same | saved
    · rw [same]
      exact front.final
    · exact .inr saved

private theorem find?_updateRequest (db : Storage.Database) (content : String)
    (wanted : String × String) :
    (db.updateContract (provider.updateRequest contract content)).2.contracts.find?
        wanted =
      if wanted = provider.finalKey contract then
        (db.contracts.find? wanted).map (Storage.Database.setContract
          (provider.updateRequest contract content))
      else db.contracts.find? wanted :=
  Storage.Database.find?_updateContract db _ wanted

private theorem holds_newRequest {content : String}
    (encoded : provider.encode contract = .ok content) (db : Storage.Database) :
    provider.Holds contract
      (db.newContractRow (provider.newRequest contract content)) :=
  ⟨rfl, encoded⟩

/-- The update request stores the contract where there is a record. -/
theorem stored_updateContract {content : String}
    (encoded : provider.encode contract = .ok content) (db : Storage.Database) :
    Stored provider contract db
      (db.updateContract (provider.updateRequest contract content)).2 where
  others := fun key different => by
    rw [find?_updateRequest, if_neg different]
  events := rfl
  final := by
    rw [find?_updateRequest, if_pos rfl]
    cases found : db.contracts.find? (provider.finalKey contract) with
    | none => exact .inl rfl
    | some row => exact .inr ⟨_, rfl, rfl, encoded⟩

/-- The create request stores the contract where there is no record. -/
theorem stored_createContract {content : String}
    (encoded : provider.encode contract = .ok content) (db : Storage.Database) :
    Stored provider contract db
      ((Storage.Call.createContract
        (provider.newRequest contract content)).respond db).2 := by
  simp only [Storage.Call.respond, Storage.Handlers.createContract,
    Storage.Database.createContract]
  cases inserted : db.contracts.insert
      (db.newContractRow (provider.newRequest contract content)) with
  | none => exact ⟨fun _ _ => rfl, rfl, .inl rfl⟩
  | some contracts =>
      refine ⟨fun key different => ?_, rfl, .inr ⟨_, ?_, holds_newRequest encoded db⟩⟩
      · exact (UniqueTable.find?_insert inserted key).trans (if_neg different)
      · exact (UniqueTable.find?_insert inserted _).trans (if_pos rfl)

/-- An update that is answered with success found a record, which now holds the
contract. -/
theorem holds_of_updateContract {content : String}
    (encoded : provider.encode contract = .ok content) {db : Storage.Database}
    {failed noEffect : String}
    (success : StorageApiClient.readEffectedNum failed noEffect
      ((Storage.Call.updateContract
        (provider.updateRequest contract content)).respond db).1 = .ok ()) :
    ∃ row, (db.updateContract
        (provider.updateRequest contract content)).2.contracts.find?
          (provider.finalKey contract) = some row ∧
      provider.Holds contract row := by
  rw [find?_updateRequest, if_pos rfl]
  cases found : db.contracts.find? (provider.finalKey contract) with
  | some row => exact ⟨_, rfl, rfl, encoded⟩
  | none =>
      have counted := Storage.Database.updateContract_fst db
        (provider.updateRequest contract content)
      have none : db.contracts.find? ((provider.updateRequest contract content).key,
        (provider.updateRequest contract content).uuid) = none := found
      rw [none] at counted
      simp only [Storage.Call.respond, Storage.Handlers.updateContract] at success
      rw [counted] at success
      cases success

/-- A creation that is answered with success created the record. -/
theorem holds_of_createContract {content : String}
    (encoded : provider.encode contract = .ok content) {db : Storage.Database}
    {row : Storage.Contract}
    (success : StorageApiClient.readContract
      ((Storage.Call.createContract
        (provider.newRequest contract content)).respond db).1 = .ok row) :
    ∃ row, ((Storage.Call.createContract
        (provider.newRequest contract content)).respond db).2.contracts.find?
          (provider.finalKey contract) = some row ∧
      provider.Holds contract row := by
  simp only [Storage.Call.respond, Storage.Handlers.createContract,
    Storage.Database.createContract] at success ⊢
  cases inserted : db.contracts.insert
      (db.newContractRow (provider.newRequest contract content)) with
  | none =>
      rw [inserted] at success
      cases success
  | some contracts =>
      exact ⟨_, (UniqueTable.find?_insert inserted _).trans (if_pos rfl),
        holds_newRequest encoded db⟩

end Stored

/-! ## The update of a contract that moved -/

/-- The deletion took place, or nothing happened and no deletion took effect. -/
def DeletedOrKept (provider : AsyncStorageApiProvider) (contract : DlcContract)
    (steps : List ApiStep) (before after : Storage.Database) : Prop :=
  after = (before.deleteContract (provider.deletion contract)).2 ∨
    after = before ∧ ∀ step ∈ steps, ∀ nonce,
      step.request = .send nonce (.deleteContract (provider.deletion contract)) →
        step.after = step.before

section Update

variable {provider : AsyncStorageApiProvider} {contract : DlcContract}
  {past : List ApiStep} {before after : Storage.Database}

theorem DeletedOrKept.append {call : Storage.Call} {steps : List ApiStep}
    (deleted : DeletedOrKept provider contract past before after)
    (sends : SendsOnly call steps)
    (other : call ≠ .deleteContract (provider.deletion contract)) :
    DeletedOrKept provider contract (past ++ steps) before after := by
  refine deleted.imp_right fun ⟨same, kept⟩ => ⟨same, fun step member nonce sent => ?_⟩
  rcases List.mem_append.mp member with old | new
  · exact kept step old nonce sent
  · exact absurd (sends step new nonce _ sent).symm other

/-- The rule for an operation of the client whose error is converted. -/
theorem always_toStorageError {α : Type} {operation : StorageApiClient α}
    {post : List ApiStep → Except DlcError α → Storage.Database → Prop}
    {db : Storage.Database}
    (always : Always Network Eq (fun _ _ => True)
      (fun past result after =>
        post past (result.mapError fun error => .storageError error.toString) after)
      past db operation.run) :
    Always Network Eq (fun _ _ => True) post past db
      (toStorageError operation).run := by
  refine (always_bind _ _).mpr (always.post_mono fun past result after holds => ?_)
  cases result <;> exact holds

/-- The deletion that an update starts with. -/
theorem always_deletion (db : Storage.Database) :
    Always Network Eq (fun _ _ => True)
      (fun past _ after => DeletedOrKept provider contract past db after)
      [] db (provider.deleteContract contract.getTemporaryId).run := by
  refine always_toStorageError (StorageApiClient.always_request ?_ ?_ ?_)
  · exact fun steps _ _ unchanged => .inr ⟨rfl, fun step member _ _ =>
      unchanged step (by simpa using member)⟩
  · exact fun _ _ _ => .inl rfl
  · exact fun _ _ => .inl rfl

/-- The deletion took place or not, the contract was stored or not, and a
success means that it was. -/
def UpdateOutcome (provider : AsyncStorageApiProvider) (contract : DlcContract)
    (db : Storage.Database) (past : List ApiStep) (result : Except DlcError Unit)
    (after : Storage.Database) : Prop :=
  (∃ middle, DeletedOrKept provider contract past db middle ∧
    Stored provider contract middle after) ∧
  (result = .ok () →
    ∃ row, after.contracts.find? (provider.finalKey contract) = some row ∧
      provider.Holds contract row)

/-- The creation that an update falls back on. -/
theorem always_creation {db : Storage.Database} {content : String}
    (encoded : provider.encode contract = .ok content)
    (earlier : ∃ middle, DeletedOrKept provider contract past db middle ∧
      Stored provider contract middle before) :
    Always Network Eq (fun _ _ => True) (UpdateOutcome provider contract db) past
      before (do
        let _ ← toStorageError (StorageApiClient.createContract
          (provider.newRequest contract content)) : ProviderM Unit).run := by
  obtain ⟨middle, deleted, stored⟩ := earlier
  have outcome {steps : List ApiStep} {after : Storage.Database}
      (sends : SendsOnly (.createContract (provider.newRequest contract content)) steps)
      (later : Stored provider contract before after) :
      ∃ middle, DeletedOrKept provider contract (past ++ steps) db middle ∧
        Stored provider contract middle after :=
    ⟨middle, deleted.append sends nofun, stored.trans later⟩
  refine (always_run_bind _ _).mpr
    (always_toStorageError (StorageApiClient.always_request ?_ ?_ ?_))
  · exact fun steps error sends _ => ⟨outcome sends (.refl before), nofun⟩
  · exact fun steps error sends =>
      ⟨outcome sends (stored_createContract encoded before), nofun⟩
  · intro steps sends
    have holds := outcome sends (stored_createContract encoded before)
    cases read : StorageApiClient.readContract
        ((Storage.Call.createContract
          (provider.newRequest contract content)).respond before).1 with
    | error error => exact ⟨holds, nofun⟩
    | ok row => exact ⟨holds, fun _ => holds_of_createContract encoded read⟩

/-- What an update of a contract that moved leaves behind. -/
theorem always_updateMoved (db : Storage.Database) :
    Always Network Eq (fun _ _ => True) (UpdateOutcome provider contract db) [] db
      (provider.updateMoved contract).run := by
  refine (always_run_lift_bind _ _).mpr (always_deletion db |>.post_mono ?_)
  intro past _ middle deleted
  unfold content
  cases encoded : provider.encode contract with
  | error error => exact ⟨⟨middle, deleted, .refl middle⟩, nofun⟩
  | ok content =>
      have stored := stored_updateContract encoded middle
      simp only [pure_bind]
      refine (always_run_lift_bind _ _).mpr (StorageApiClient.always_request ?_ ?_ ?_)
      · exact fun steps error sends _ => always_creation encoded
          ⟨middle, deleted.append sends nofun, .refl middle⟩
      · exact fun steps error sends => always_creation encoded
          ⟨middle, deleted.append sends nofun, stored⟩
      · intro steps sends
        cases read : StorageApiClient.readEffectedNum "Updating contract"
            "No contract updated" ((Storage.Call.updateContract
              (provider.updateRequest contract content)).respond middle).1 with
        | error error =>
            exact always_creation encoded
              ⟨middle, deleted.append sends nofun, stored⟩
        | ok success =>
            exact ⟨⟨middle, deleted.append sends nofun, stored⟩,
              fun _ => holds_of_updateContract encoded read⟩

end Update

/-- However the requests of an update of an accepted or signed contract fail,
only the records under its two identifiers are touched.  The one under the
temporary identifier is gone unless no deletion took effect, when it is as it
was.  After a success the contract is the one record under the final
identifier; after an error that record is as it was or holds the contract. -/
theorem updateContract_outcome (provider : AsyncStorageApiProvider)
    {contract : DlcContract} (moved : contract.isMoved = true)
    {db after : Storage.Database} {steps : List ApiStep}
    {result : Except DlcError Unit}
    (run : Runs Network (provider.updateContract contract).run db steps result
      after) :
    (∀ key, key ≠ provider.temporaryKey contract → key ≠ provider.finalKey contract →
      after.contracts.find? key = db.contracts.find? key) ∧
    after.events = db.events ∧
    (provider.temporaryKey contract ≠ provider.finalKey contract →
      after.contracts.find? (provider.temporaryKey contract) = none ∨
        after.contracts.find? (provider.temporaryKey contract) =
            db.contracts.find? (provider.temporaryKey contract) ∧
          ∀ step ∈ steps, ∀ nonce,
            step.request = .send nonce (.deleteContract (provider.deletion contract)) →
              step.after = step.before) ∧
    (result = .ok () →
      ∃ row, (after.contracts.select fun row =>
          row.uniqueKey = provider.finalKey contract) = [row] ∧
        provider.Holds contract row) ∧
    (∀ error, result = .error error →
      after.contracts.find? (provider.finalKey contract) =
          db.contracts.find? (provider.finalKey contract) ∨
        (∃ row, after.contracts.find? (provider.finalKey contract) = some row ∧
          provider.Holds contract row) ∨
        provider.temporaryKey contract = provider.finalKey contract ∧
          after.contracts.find? (provider.finalKey contract) = none) := by
  have unfolded : provider.updateContract contract = provider.updateMoved contract := by
    cases contract with
    | accepted accepted => rfl
    | signed signed => rfl
    | _ => cases moved
  rw [unfolded] at run
  obtain ⟨⟨middle, deleted, stored⟩, success⟩ := ((always_updateMoved db).of_runs run).2
  rw [List.nil_append] at deleted
  have temporary (key : String × String) (middleEq : middle =
      (db.deleteContract (provider.deletion contract)).2) :
      middle.contracts.find? key =
        if key = provider.temporaryKey contract then none
        else db.contracts.find? key := by
    rw [middleEq]
    exact Storage.Database.find?_deleteContract db _ key
  refine ⟨?_, ?_, ?_, ?_, ?_⟩
  · intro key notTemporary notFinal
    rw [stored.others key notFinal]
    rcases deleted with gone | ⟨rfl, -⟩
    · rw [temporary key gone, if_neg notTemporary]
    · rfl
  · rw [stored.events]
    rcases deleted with rfl | ⟨rfl, -⟩ <;> rfl
  · intro different
    rw [stored.others _ different]
    rcases deleted with gone | ⟨rfl, kept⟩
    · exact .inl (by rw [temporary _ gone, if_pos rfl])
    · exact .inr ⟨rfl, kept⟩
  · intro ok
    obtain ⟨row, found, holds⟩ := success ok
    exact ⟨row, by rw [UniqueTable.select_key, found]; rfl, holds⟩
  · intro error _
    rcases stored.final with same | saved
    · rw [same]
      rcases deleted with gone | ⟨rfl, -⟩
      · rw [temporary _ gone]
        by_cases equal : provider.finalKey contract = provider.temporaryKey contract
        · exact .inr (.inr ⟨equal.symm, if_pos equal⟩)
        · exact .inl (if_neg equal)
      · exact .inl rfl
    · exact .inr (.inl saved)

/-! ## A lost deletion -/

/-- A provider whose contents name the state only. -/
def sample : AsyncStorageApiProvider :=
  ⟨"alice", fun contract => .ok contract.getContractStateStr, .error⟩

def sampleOffer : OfferedContract :=
  ⟨Vector.replicate 32 1, [⟨[⟨"attestor", "event"⟩], 1⟩], "peer"⟩

def sampleSigned : DlcContract :=
  .signed ⟨⟨sampleOffer, [.numerical], ⟨⟨"fund", 0⟩, ⟨"refund", 100⟩, "script"⟩,
    Vector.replicate 32 2⟩, none⟩

/-- The database with the record of the offer. -/
def sampleOffered : Storage.Database :=
  ((Storage.Call.createContract (sample.newRequest (.offered sampleOffer) "offered")).respond
    .empty).2

/-- The database with a second record for the signed contract. -/
def sampleBoth : Storage.Database :=
  ((Storage.Call.createContract (sample.newRequest sampleSigned "signed")).respond
    sampleOffered).2

/-- The nonce for the deletion is lost; the update finds no record, and the
creation succeeds. -/
private theorem sample_lost_deletion :
    ∃ steps, Runs Network (sample.updateContract sampleSigned).run sampleOffered
      steps (.ok ()) sampleBoth :=
  ⟨_, .error ⟨"timeout", 400⟩, sampleOffered, _, rfl, rfl,
    .ok "nonce", sampleOffered, _, rfl, rfl,
    .ok ⟨.notFound, .text "No contract found"⟩, sampleOffered, _,
      .inl ⟨by decide, by decide⟩, rfl,
    .ok "nonce", sampleOffered, _, rfl, rfl,
    .ok ⟨.ok, .contract (sampleOffered.newContractRow
      (sample.newRequest sampleSigned "signed"))⟩, sampleBoth, _,
      .inl ⟨by decide, rfl⟩, rfl,
    rfl, rfl, rfl⟩

/-- An update that succeeds leaves the record under the temporary identifier
behind when the deletion was lost. -/
theorem updateContract_keeps_offer :
    ¬ ∀ (provider : AsyncStorageApiProvider) (contract : DlcContract)
      (db after : Storage.Database) (steps : List ApiStep)
      (result : Except DlcError Unit), contract.isMoved = true →
      Runs Network (provider.updateContract contract).run db steps result after →
      (result = .ok () →
        (∃ row, (after.contracts.select fun row =>
            row.uniqueKey = provider.finalKey contract) = [row] ∧
          provider.Holds contract row) ∧
        after.contracts.find? (provider.temporaryKey contract) = none) ∧
      (∀ error, result = .error error → after = db) := by
  intro claimed
  obtain ⟨steps, run⟩ := sample_lost_deletion
  have gone := ((claimed _ _ _ _ _ _ rfl run).1 rfl).2
  exact absurd gone (by decide)

/-- The same run: the contract is stored, and the offer is as it was. -/
theorem updateContract_outcome_sample :
    sample.temporaryKey sampleSigned ≠ sample.finalKey sampleSigned ∧
      (∃ row, (sampleBoth.contracts.select fun row =>
          row.uniqueKey = sample.finalKey sampleSigned) = [row] ∧
        sample.Holds sampleSigned row) ∧
      sampleBoth.contracts.find? (sample.temporaryKey sampleSigned) =
        sampleOffered.contracts.find? (sample.temporaryKey sampleSigned) := by
  obtain ⟨steps, run⟩ := sample_lost_deletion
  have different : sample.temporaryKey sampleSigned ≠ sample.finalKey sampleSigned := by
    decide
  obtain ⟨-, -, temporary, success, -⟩ := updateContract_outcome sample rfl run
  refine ⟨different, success rfl, ?_⟩
  rcases temporary different with gone | ⟨kept, -⟩
  · exact absurd gone (by decide)
  · exact kept

end AsyncStorageApiProvider

end Clients

end DlcStack
