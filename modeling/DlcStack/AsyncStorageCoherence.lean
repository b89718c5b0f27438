import DlcStack.ContractSerialization
import DlcStack.EffectInterleaving

/-!
# Records that agree with themselves

A record names the state of its contract in a column and in the first byte of its
content, and its identifier in its uuid.  The operations of the provider set all
of them from one contract, in one request, so they agree in every record, however
the operations overlap and whichever requests are lost.
-/

namespace DlcStack

namespace Clients

open Program

namespace AsyncStorageApiProvider

/-- The row is that of the contract in its content. -/
def CoherentRow (provider : AsyncStorageApiProvider) (row : Storage.Contract) : Prop :=
  ∃ contract, provider.decode row.content = .ok contract ∧
    row.uuid = getContractIdString contract.getId ∧
    row.state = contract.getContractStateStr

/-- All rows of the provider are coherent. -/
def CoherentRows (provider : AsyncStorageApiProvider) (db : Storage.Database) : Prop :=
  ∀ row ∈ db.contracts.rows, row.key = provider.publicKey → provider.CoherentRow row

/-- The operations that change records. -/
inductive Operation where
  | createContract (contract : OfferedContract)
  | updateContract (contract : DlcContract)
  | deleteContract (id : ContractId)

def Operation.run (provider : AsyncStorageApiProvider) : Operation → ProviderM Unit
  | createContract contract => provider.createContract contract
  | updateContract contract => provider.updateContract contract
  | deleteContract id => provider.deleteContract id

/-- The calls that the operations send. -/
inductive Sends (provider : AsyncStorageApiProvider) : Storage.Call → Prop
  | create {contract : DlcContract} {content : String}
      (encoded : provider.encode contract = .ok content) :
      Sends provider (.createContract (provider.newRequest contract content))
  | update {contract : DlcContract} {content : String}
      (encoded : provider.encode contract = .ok content) :
      Sends provider (.updateContract (provider.updateRequest contract content))
  | delete {uuid : String} : Sends provider (.deleteContract ⟨uuid, provider.publicKey⟩)

/-- A step that sends no other call. -/
def Proper (provider : AsyncStorageApiProvider) (step : ApiStep) : Prop :=
  ∀ nonce call, step.request = .send nonce call → provider.Sends call

/-! ## The effect of one call -/

section Rows

variable {provider : AsyncStorageApiProvider} {db : Storage.Database}

theorem CoherentRows.create {contract : DlcContract} {content : String}
    (coherent : provider.CoherentRows db) (roundTrip : provider.RoundTrip)
    (encoded : provider.encode contract = .ok content) :
    provider.CoherentRows
      ((Storage.Call.createContract (provider.newRequest contract content)).respond
        db).2 := by
  simp only [Storage.Call.respond, Storage.Handlers.createContract,
    Storage.Database.createContract]
  cases inserted : db.contracts.insert
      (db.newContractRow (provider.newRequest contract content)) with
  | none => exact coherent
  | some contracts =>
      obtain ⟨_, rows⟩ := UniqueTable.insert_eq_some_iff.mp inserted
      intro row member ours
      dsimp only at member
      rw [rows] at member
      rcases List.mem_append.mp member with member | member
      · exact coherent row member ours
      · obtain rfl := List.mem_singleton.mp member
        exact ⟨contract, roundTrip contract content encoded, rfl, rfl⟩

theorem CoherentRows.update {contract : DlcContract} {content : String}
    (coherent : provider.CoherentRows db) (roundTrip : provider.RoundTrip)
    (encoded : provider.encode contract = .ok content) :
    provider.CoherentRows
      (db.updateContract (provider.updateRequest contract content)).2 := by
  intro row member ours
  obtain ⟨old, oldMember, rfl⟩ := List.mem_map.mp member
  split_ifs with addressed
  · exact ⟨contract, roundTrip contract content encoded, rfl, rfl⟩
  · rw [if_neg addressed] at ours
    exact coherent old oldMember ours

theorem CoherentRows.delete {uuid key : String}
    (coherent : provider.CoherentRows db) :
    provider.CoherentRows (db.deleteContract ⟨uuid, key⟩).2 :=
  fun row member => coherent row (List.mem_filter.mp member).1

theorem CoherentRows.respond {call : Storage.Call}
    (coherent : provider.CoherentRows db) (roundTrip : provider.RoundTrip)
    (sends : provider.Sends call) : provider.CoherentRows (call.respond db).2 := by
  cases sends with
  | create encoded => exact coherent.create roundTrip encoded
  | update encoded => exact coherent.update roundTrip encoded
  | delete => exact coherent.delete

theorem CoherentRows.step {step : ApiStep} (coherent : provider.CoherentRows step.before)
    (roundTrip : provider.RoundTrip) (proper : provider.Proper step)
    (served : Network step.before step.request step.answer step.after) :
    provider.CoherentRows step.after := by
  obtain ⟨before, request, answer, after⟩ := step
  dsimp only at coherent served ⊢
  cases request with
  | requestNonce =>
      obtain rfl : after = before := served
      exact coherent
  | send nonce call =>
      have responded := coherent.respond roundTrip (proper nonce call rfl)
      rcases served with ⟨_, rfl⟩ | ⟨_, rfl | rfl⟩
      · exact responded
      · exact coherent
      · exact responded

end Rows

/-! ## The steps of an operation -/

/-- Whatever happens meanwhile, the program takes proper steps only. -/
def AllProper {α : Type} (provider : AsyncStorageApiProvider)
    (program : Program ApiRequest ApiRequest.Answer α) : Prop :=
  ∀ past db, Always Network (fun _ _ => True) (fun _ step => provider.Proper step)
    (fun _ _ _ => True) past db program

section AllProper

variable {α β : Type} {provider : AsyncStorageApiProvider}

theorem allProper_run_bind {program : ProviderM α} {rest : α → ProviderM β}
    (first : provider.AllProper program.run)
    (second : ∀ value, provider.AllProper (rest value).run) :
    provider.AllProper (program >>= rest).run := by
  intro past db
  refine (always_run_bind _ _).mpr ((first past db).post_mono fun past result db _ => ?_)
  cases result with
  | ok value => exact second value past db
  | error error => trivial

theorem allProper_run_lift_bind {program : Program ApiRequest ApiRequest.Answer α}
    {rest : α → ProviderM β} (first : provider.AllProper program)
    (second : ∀ value, provider.AllProper (rest value).run) :
    provider.AllProper (ExceptT.lift program >>= rest).run := by
  intro past db
  exact (always_run_lift_bind _ _).mpr
    ((first past db).post_mono fun past value db _ => second value past db)

theorem allProper_pure (result : Except DlcError α) :
    provider.AllProper (pure result) :=
  fun _ _ => trivial

theorem allProper_request {call : Storage.Call}
    {read : Storage.Response → Except ApiError α} (sends : provider.Sends call) :
    provider.AllProper (StorageApiClient.request call read).run := by
  intro past db before _ answer after _
  refine ⟨nofun, ?_⟩
  cases answer with
  | error error => trivial
  | ok nonce =>
      intro before _ answer after _
      refine ⟨?_, ?_⟩
      · rintro _ _ ⟨⟩
        exact sends
      · cases answer <;> trivial

theorem allProper_toStorageError {operation : StorageApiClient α}
    (proper : provider.AllProper operation.run) :
    provider.AllProper (toStorageError operation).run := by
  intro past db
  refine (always_bind _ _).mpr ((proper past db).post_mono fun _ result _ _ => ?_)
  cases result <;> trivial

/-- Encoding a contract sends nothing. -/
theorem allProper_content {contract : DlcContract} {rest : String → ProviderM α}
    (encoded : ∀ content, provider.encode contract = .ok content →
      provider.AllProper (rest content).run) :
    provider.AllProper (provider.content contract >>= rest).run := by
  unfold content
  cases written : provider.encode contract with
  | ok content => exact encoded content written
  | error error => exact allProper_pure _

theorem allProper_run (operation : Operation) :
    provider.AllProper (operation.run provider).run := by
  have update {contract : DlcContract} :
      provider.AllProper (do
        let content ← provider.content contract
        toStorageError (StorageApiClient.updateContract
          (provider.updateRequest contract content)) : ProviderM Unit).run :=
    allProper_content fun content encoded =>
      allProper_toStorageError (allProper_request (.update encoded))
  have moved {contract : DlcContract} : provider.AllProper (provider.updateMoved contract).run := by
    refine allProper_run_lift_bind
      (allProper_toStorageError (allProper_request .delete)) fun _ => ?_
    refine allProper_content fun content encoded => ?_
    refine allProper_run_lift_bind (allProper_request (.update encoded)) fun result => ?_
    cases result with
    | ok _ => exact allProper_pure _
    | error error =>
        refine allProper_content fun content encoded => ?_
        exact allProper_run_bind
          (allProper_toStorageError (allProper_request (.create encoded)))
          fun _ => allProper_pure _
  cases operation with
  | createContract contract =>
      refine allProper_content fun content encoded => ?_
      exact allProper_run_bind
        (allProper_toStorageError (allProper_request (.create encoded)))
        fun _ => allProper_pure _
  | deleteContract id =>
      exact allProper_toStorageError (allProper_request .delete)
  | updateContract contract =>
      cases contract with
      | accepted accepted => exact moved
      | signed signed => exact moved
      | _ => exact update

end AllProper

/-! ## Lookups -/

/-- The contract in a row. -/
def contract? (provider : AsyncStorageApiProvider) (row : Storage.Contract) :
    Option DlcContract :=
  (provider.decode row.content).toOption

/-- The contracts in the rows of the provider. -/
def storedContracts (provider : AsyncStorageApiProvider) (db : Storage.Database) :
    List DlcContract :=
  (db.contractsOf provider.publicKey).filterMap provider.contract?

/-- The request or its reply was lost. -/
def lost (step : ApiStep) : Bool :=
  match step with
  | ⟨_, .requestNonce, .error _, _⟩ => true
  | ⟨_, .send _ _, .error _, _⟩ => true
  | _ => false

section Lookups

variable {α : Type} {provider : AsyncStorageApiProvider} {db final : Storage.Database}

theorem contract?_eq {row : Storage.Contract} {contract : DlcContract}
    (decoded : provider.decode row.content = .ok contract) :
    provider.contract? row = some contract := by
  rw [contract?, decoded]
  rfl

theorem decodeAll_eq {rows : List Storage.Contract}
    (decodes : ∀ row ∈ rows, ∃ contract, provider.decode row.content = .ok contract) :
    provider.decodeAll rows = pure (rows.filterMap provider.contract?) := by
  induction rows with
  | nil => rfl
  | cons row rows ih =>
      obtain ⟨contract, decoded⟩ := decodes row (by simp)
      have rest := ih fun other member => decodes other (List.mem_cons_of_mem _ member)
      unfold decodeAll
      rw [decoded, List.filterMap_cons, contract?_eq decoded]
      dsimp only
      rw [rest]
      rfl

/-- The rows in one state hold the contracts of its variant. -/
theorem filterMap_rowsInState {rows : List Storage.Contract} {state : String}
    {variant : DlcContract → Option α}
    (names : ∀ contract, (variant contract).isSome ↔ contract.getContractStateStr = state)
    (coherent : ∀ row ∈ rows, provider.CoherentRow row) :
    ((rows.filter fun row => row.state = state).filterMap provider.contract?).filterMap
        variant = (rows.filterMap provider.contract?).filterMap variant ∧
      (((rows.filter fun row => row.state = state).filterMap provider.contract?).filterMap
        variant).length = (rows.filter fun row => row.state = state).length := by
  induction rows with
  | nil => exact ⟨rfl, rfl⟩
  | cons row rows ih =>
      obtain ⟨same, counted⟩ := ih fun other member =>
        coherent other (List.mem_cons_of_mem _ member)
      obtain ⟨contract, decoded, _, stateEq⟩ := coherent row (by simp)
      have held := contract?_eq decoded
      rw [same] at counted
      by_cases inState : row.state = state
      · obtain ⟨value, found⟩ := Option.isSome_iff_exists.mp
          ((names contract).mpr (stateEq.symm.trans inState))
        simp [inState, held, found, same, counted]
      · have other : variant contract = none := by
          rw [← Option.not_isSome_iff_eq_none, names, ← stateEq]
          exact inState
        simp [inState, held, other, same, counted]

/-- The lookup returns the stored contracts of its variant, one for each row in the
state, unless a request or a reply is lost. -/
def Exact (provider : AsyncStorageApiProvider) (db : Storage.Database) (state : String)
    (variant : DlcContract → Option α) (lookup : ProviderM (List α)) : Prop :=
  ∀ steps result final, Runs Network lookup.run db steps result final →
    (∃ step ∈ steps, lost step = true) ∨
      ∃ contracts, result = .ok contracts ∧
        contracts = (provider.storedContracts db).filterMap variant ∧
        contracts.length =
          (db.getContracts ⟨provider.publicKey, none, some state⟩).length

theorem contractsOf_exact {state : String} {variant : DlcContract → Option α}
    (names : ∀ contract, (variant contract).isSome ↔ contract.getContractStateStr = state)
    (coherent : provider.CoherentRows db) :
    provider.Exact db state variant (provider.contractsOf state variant) := by
  intro steps result final run
  obtain ⟨answer, middle, rest, served, rfl, run⟩ := run
  obtain rfl : middle = db := served
  cases answer with
  | error error => exact .inl ⟨_, List.mem_cons_self, rfl⟩
  | ok nonce =>
  obtain ⟨answer, after, rest, served, rfl, run⟩ := run
  cases answer with
  | error error => exact .inl ⟨_, List.mem_cons_of_mem _ List.mem_cons_self, rfl⟩
  | ok res =>
  rcases served with ⟨answered, _⟩ | ⟨⟨_, failed⟩, _⟩
  · obtain rfl := Except.ok.inj answered
    right
    have ours : ∀ row ∈ middle.contractsOf provider.publicKey, provider.CoherentRow row := by
      intro row member
      obtain ⟨stored, owned⟩ := List.mem_filter.mp member
      exact coherent row stored (of_decide_eq_true owned)
    change Runs Network (provider.decodeAll (middle.getContracts
      ⟨provider.publicKey, none, some state⟩) >>= fun contracts =>
        pure (contracts.filterMap variant)).run after rest result final at run
    rw [Storage.Database.getContracts_inState,
      decodeAll_eq fun row member =>
        (ours row (List.mem_filter.mp member).1).imp fun _ holds => holds.1] at run
    obtain ⟨_, rfl, _⟩ := run
    obtain ⟨same, counted⟩ := filterMap_rowsInState names ours
    rw [Storage.Database.getContracts_inState]
    exact ⟨_, rfl, same, counted⟩
  · cases failed

theorem getContractOffers_exact (coherent : provider.CoherentRows db) :
    provider.Exact db "offered" DlcContract.offered? provider.getContractOffers := by
  refine contractsOf_exact (fun contract => ?_) coherent
  cases contract <;> simp [DlcContract.offered?, DlcContract.getContractStateStr]

theorem getSignedContracts_exact (coherent : provider.CoherentRows db) :
    provider.Exact db "signed" DlcContract.signed? provider.getSignedContracts := by
  refine contractsOf_exact (fun contract => ?_) coherent
  cases contract <;> simp [DlcContract.signed?, DlcContract.getContractStateStr]

theorem getConfirmedContracts_exact (coherent : provider.CoherentRows db) :
    provider.Exact db "confirmed" DlcContract.confirmed? provider.getConfirmedContracts := by
  refine contractsOf_exact (fun contract => ?_) coherent
  cases contract <;> simp [DlcContract.confirmed?, DlcContract.getContractStateStr]

theorem getPreclosedContracts_exact (coherent : provider.CoherentRows db) :
    provider.Exact db "pre_closed" DlcContract.preClosed? provider.getPreclosedContracts := by
  refine contractsOf_exact (fun contract => ?_) coherent
  cases contract <;> simp [DlcContract.preClosed?, DlcContract.getContractStateStr]

end Lookups

/-- Along every interleaving of operations of providers with one key, with any
requests lost, all rows are coherent, and so the lookups find what is stored. -/
theorem interleaved_rows_coherent {ι : Type} [DecidableEq ι] {formats : ContractFormats}
    (roundTrip : formats.RoundTrip) (publicKey : String) (operations : ι → Operation)
    {start final : Storage.Database} {trace : List (ι × ApiStep)}
    {pool : Pool ι Storage.Database ApiRequest ApiRequest.Answer (Except DlcError Unit)}
    (initially : (formats.provider publicKey).CoherentRows start)
    (run : Interleaved Network AnyStep
      (fun index => Thread.start ((operations index).run (formats.provider publicKey)).run)
      start trace pool final) :
    (formats.provider publicKey).CoherentRows final ∧
      (formats.provider publicKey).Exact final "offered" DlcContract.offered?
        (formats.provider publicKey).getContractOffers ∧
      (formats.provider publicKey).Exact final "signed" DlcContract.signed?
        (formats.provider publicKey).getSignedContracts ∧
      (formats.provider publicKey).Exact final "confirmed" DlcContract.confirmed?
        (formats.provider publicKey).getConfirmedContracts ∧
      (formats.provider publicKey).Exact final "pre_closed" DlcContract.preClosed?
        (formats.provider publicKey).getPreclosedContracts := by
  have locally (index : ι) : (Thread.start
      ((operations index).run (formats.provider publicKey)).run).Locally Network
        (fun _ step => (formats.provider publicKey).Proper step) (fun _ _ => True) :=
    allProper_run (operations index) []
  have coherent := run.invariant
    (fun _ db => (formats.provider publicKey).CoherentRows db) locally initially
    (fun _ _ step _ coherent _ served _ proper _ =>
      coherent.step (formats.provider_roundTrip roundTrip publicKey) proper served)
  exact ⟨coherent, getContractOffers_exact coherent, getSignedContracts_exact coherent,
    getConfirmedContracts_exact coherent, getPreclosedContracts_exact coherent⟩

/-- A signed contract is stored while its offer is rejected and deleted. -/
def sampleOverlapping : Fin 3 → Operation
  | 0 => .updateContract sampleSigned
  | 1 => .updateContract (.rejected sampleOffer)
  | 2 => .deleteContract sampleOffer.id

/-- A network that delivers everything. -/
def deliver : Responder Storage.Database ApiRequest ApiRequest.Answer :=
  fun db request =>
    match request with
    | .requestNonce => (.ok "nonce", db)
    | .send _ call => (.ok (call.respond db).1, (call.respond db).2)

theorem network_deliver (db : Storage.Database) (request : ApiRequest) :
    Network db request (deliver db request).1 (deliver db request).2 := by
  cases request with
  | requestNonce => rfl
  | send nonce call => exact .inl ⟨rfl, rfl⟩

theorem interleaved_rows_coherent_sampleOverlapping :
    (sampleFormats.provider "alice").CoherentRows
      (Pool.schedule deliver [0, 1, 0, 1, 2, 0, 2, 0, 0, 0]
        (fun index => Thread.start
          ((sampleOverlapping index).run (sampleFormats.provider "alice")).run)
        .empty).2 := by
  have initially : (sampleFormats.provider "alice").CoherentRows .empty := by
    intro row member
    cases member
  exact (interleaved_rows_coherent sampleFormats_roundTrip "alice" sampleOverlapping
    initially (interleaved_schedule deliver network_deliver _ (metAlong_anyStep ..)
      .idle)).1

end AsyncStorageApiProvider

end Clients

end DlcStack
