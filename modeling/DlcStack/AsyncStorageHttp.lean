import DlcStack.AsyncStorageProvider
import DlcStack.StorageHttp

/-!
# The provider over HTTP

All operations of the provider are made of operations of the client, so they do over HTTP
what they do over a network on which each request is one call, for any number of providers
at the same time.
-/

namespace DlcStack

namespace Clients

open Program

namespace HttpApi

variable {lib : Storage.Libraries} {api : HttpApi lib} {draw : Nat → String} {α β ε : Type}

/-- Over HTTP the program does what it does over a network of calls. -/
def Provides (api : HttpApi lib) (draw : Nat → String)
    (program : ExceptT ε (Program ApiRequest ApiRequest.Answer) α) : Prop :=
  CarriesOut (Http draw) Network Serves (program.run.expand api.carryOut) program.run

theorem Provides.bind {program : ExceptT ε (Program ApiRequest ApiRequest.Answer) α}
    {rest : α → ExceptT ε (Program ApiRequest ApiRequest.Answer) β}
    (first : api.Provides draw program) (second : ∀ value, api.Provides draw (rest value)) :
    api.Provides draw (program >>= rest) := by
  unfold Provides
  rw [ExceptT.run_bind, expand_bind]
  refine CarriesOut.bind first fun result => ?_
  cases result with
  | ok value => exact second value
  | error error => exact carriesOut_ret _

theorem provides_lift {program : ExceptT ε (Program ApiRequest ApiRequest.Answer) α}
    (provides : api.Provides draw program) :
    api.Provides draw (ExceptT.lift program.run :
      ExceptT DlcError (Program ApiRequest ApiRequest.Answer) (Except ε α)) := by
  unfold Provides
  rw [ExceptT.run_lift, ← bind_pure_comp, expand_bind]
  exact CarriesOut.bind provides fun result => carriesOut_ret _

theorem provides_toStorageError {program : StorageApiClient α}
    (provides : api.Provides draw program) : api.Provides draw (toStorageError program) := by
  unfold Provides toStorageError
  rw [ExceptT.run_mk, expand_bind]
  refine CarriesOut.bind provides fun result => ?_
  cases result <;> exact carriesOut_ret _

/-- What the client must be for its requests to be accepted. -/
structure Accepted (api : HttpApi lib) (provider : AsyncStorageApiProvider) : Prop where
  agrees : api.signer.Agrees
  nests : lib.Nests
  owned : provider.publicKey = api.key

section Provider

variable {provider : AsyncStorageApiProvider} (accepted : api.Accepted provider)

include accepted

theorem provides_getContracts (uuid state : Option String) :
    api.Provides draw (StorageApiClient.getContracts ⟨provider.publicKey, uuid, state⟩) :=
  carriesOut_request accepted.agrees accepted.nests
    (.getContracts ⟨provider.publicKey, uuid, state⟩) accepted.owned readsBody_readContracts

theorem provides_createContract (contract : DlcContract) (content : String) :
    api.Provides draw (toStorageError (StorageApiClient.createContract
      (provider.newRequest contract content))) :=
  provides_toStorageError (carriesOut_request accepted.agrees accepted.nests
    (.createContract (provider.newRequest contract content)) accepted.owned
      readsBody_readContract)

theorem provides_updateContract (contract : DlcContract) (content : String) :
    api.Provides draw (StorageApiClient.updateContract
      (provider.updateRequest contract content)) :=
  carriesOut_request accepted.agrees accepted.nests
    (.updateContract (provider.updateRequest contract content)) accepted.owned
      (readsBody_readEffectedNum _ _)

theorem provides_deleteContract (id : ContractId) :
    api.Provides draw (provider.deleteContract id) :=
  provides_toStorageError (carriesOut_request accepted.agrees accepted.nests
    (.deleteContract ⟨getContractIdString id, provider.publicKey⟩) accepted.owned
      (readsBody_readEffectedNum _ _))

omit accepted in
theorem provides_content (contract : DlcContract) :
    api.Provides draw (provider.content contract) := by
  unfold AsyncStorageApiProvider.content
  cases provider.encode contract <;> exact carriesOut_ret _

omit accepted in
theorem provides_decodeAll (rows : List Storage.Contract) :
    api.Provides draw (provider.decodeAll rows) := by
  induction rows with
  | nil => exact carriesOut_ret _
  | cons row rows ih =>
      unfold AsyncStorageApiProvider.decodeAll
      cases provider.decode row.content with
      | ok contract => exact ih.bind fun _ => carriesOut_ret _
      | error error => exact carriesOut_ret _

theorem provides_getContract (id : ContractId) :
    api.Provides draw (provider.getContract id) := by
  have found : api.Provides draw (toStorageError (StorageApiClient.getContract
      provider.publicKey (getContractIdString id))) :=
    provides_toStorageError
      ((provides_getContracts accepted _ none).bind fun _ => carriesOut_ret _)
  refine found.bind fun row => ?_
  cases row with
  | none => exact carriesOut_ret _
  | some row =>
      dsimp only
      cases provider.decode row.content <;> exact carriesOut_ret _

theorem provides_contractsOf (state : String) (variant : DlcContract → Option α) :
    api.Provides draw (provider.contractsOf state variant) :=
  ((provides_toStorageError (provides_getContracts accepted none (some state))).bind
    provides_decodeAll).bind fun _ => carriesOut_ret _

theorem provides_updateMoved (contract : DlcContract) :
    api.Provides draw (provider.updateMoved contract) := by
  unfold AsyncStorageApiProvider.updateMoved
  refine (provides_lift (provides_deleteContract accepted _)).bind fun _ => ?_
  refine (provides_content contract).bind fun content => ?_
  refine (provides_lift (provides_updateContract accepted contract content)).bind
    fun result => ?_
  cases result with
  | ok _ => exact carriesOut_ret _
  | error error =>
      refine (provides_content contract).bind fun content => ?_
      exact (provides_createContract accepted contract content).bind fun _ => carriesOut_ret _

theorem provides_update (contract : DlcContract) :
    api.Provides draw (provider.updateContract contract) := by
  have stays : api.Provides draw (do
      let content ← provider.content contract
      toStorageError (StorageApiClient.updateContract
        (provider.updateRequest contract content))) :=
    (provides_content contract).bind fun content =>
      provides_toStorageError (provides_updateContract accepted contract content)
  cases contract with
  | accepted accepted' => exact provides_updateMoved accepted _
  | signed signed => exact provides_updateMoved accepted _
  | _ => exact stays

theorem provides_create (contract : OfferedContract) :
    api.Provides draw (provider.createContract contract) :=
  (provides_content (.offered contract)).bind fun content =>
    (provides_createContract accepted (.offered contract) content).bind fun _ =>
      carriesOut_ret _

end Provider

end HttpApi

/-! ## Providers at the same time -/

/-- The operations of `AsyncStorage` that the provider implements. -/
inductive StorageOperation where
  | getContract (id : ContractId)
  | getContracts
  | createContract (contract : OfferedContract)
  | deleteContract (id : ContractId)
  | updateContract (contract : DlcContract)
  | getContractOffers
  | getSignedContracts
  | getConfirmedContracts
  | getPreclosedContracts

/-- What an operation returns. -/
inductive StorageResult where
  | contract (found : Option DlcContract)
  | contracts (contracts : List DlcContract)
  | offers (offers : List OfferedContract)
  | signed (contracts : List SignedContract)
  | preClosed (contracts : List PreClosedContract)
  | done

def StorageOperation.run (provider : AsyncStorageApiProvider) :
    StorageOperation → ProviderM StorageResult
  | getContract id => do return .contract (← provider.getContract id)
  | getContracts => do return .contracts (← provider.getContracts)
  | createContract contract => do
      let _ ← provider.createContract contract
      return .done
  | deleteContract id => do
      let _ ← provider.deleteContract id
      return .done
  | updateContract contract => do
      let _ ← provider.updateContract contract
      return .done
  | getContractOffers => do return .offers (← provider.getContractOffers)
  | getSignedContracts => do return .signed (← provider.getSignedContracts)
  | getConfirmedContracts => do return .signed (← provider.getConfirmedContracts)
  | getPreclosedContracts => do return .preClosed (← provider.getPreclosedContracts)

theorem provides_storageOperation {lib : Storage.Libraries} {api : HttpApi lib}
    {provider : AsyncStorageApiProvider} (accepted : api.Accepted provider)
    (draw : Nat → String) (operation : StorageOperation) :
    api.Provides draw (operation.run provider) := by
  cases operation with
  | getContract id =>
      exact (HttpApi.provides_getContract accepted id).bind fun _ => carriesOut_ret _
  | getContracts =>
      have listed : api.Provides draw (toStorageError
          (StorageApiClient.getContracts ⟨provider.publicKey, none, none⟩)) :=
        HttpApi.provides_toStorageError (HttpApi.provides_getContracts accepted none none)
      exact (listed.bind HttpApi.provides_decodeAll).bind fun _ => carriesOut_ret _
  | createContract contract =>
      exact (HttpApi.provides_create accepted contract).bind fun _ => carriesOut_ret _
  | deleteContract id =>
      exact (HttpApi.provides_deleteContract accepted id).bind fun _ => carriesOut_ret _
  | updateContract contract =>
      exact (HttpApi.provides_update accepted contract).bind fun _ => carriesOut_ret _
  | _ => exact (HttpApi.provides_contractsOf accepted _ _).bind fun _ => carriesOut_ret _

/-- However the requests of any number of clients overlap on the server, and whichever of
them the network loses, the operations of the providers return what they return, and leave
the rows that they leave, with each request as one call on the database. -/
theorem interleaved_over_http {ι : Type} [DecidableEq ι] {lib : Storage.Libraries}
    {draw : Nat → String} {apis : ι → HttpApi lib}
    {providers : ι → AsyncStorageApiProvider} {operations : ι → StorageOperation}
    (accepted : ∀ index, (apis index).Accepted (providers index))
    {start final : Storage.Server}
    {trace : List (ι × Step Storage.Server HttpEffect HttpEffect.Answer)}
    {pool : Pool ι Storage.Server HttpEffect HttpEffect.Answer (Except DlcError StorageResult)}
    (run : Interleaved (Http draw) AnyStep
      (fun index => Thread.start
        (((operations index).run (providers index)).run.expand (apis index).carryOut))
      start trace pool final) (watched : List ι) :
    ∃ calls threads, Interleaved Network AnyStep
        (fun index => Thread.start ((operations index).run (providers index)).run)
        start.db calls threads final.db ∧
      ∀ index ∈ watched, ∀ result, (pool index).program = ret result →
        (threads index).program = ret result := by
  let specified : Pool ι Storage.Database ApiRequest ApiRequest.Answer
      (Except DlcError StorageResult) :=
    fun index => Thread.start ((operations index).run (providers index)).run
  have each (index : ι) : CarriesOut (Http draw) Network Serves
      (((operations index).run (providers index)).run.expand (apis index).carryOut)
      (specified index).program :=
    provides_storageOperation (accepted index) draw (operations index)
  have serves : Serves start.db start := rfl
  obtain ⟨calls, threads, db, simulated, serves, -, returned⟩ :=
    run.carriesOut_returned serves each watched
  obtain rfl : final.db = db := serves
  exact ⟨calls, threads, simulated, returned⟩

/-- The network delivers every request. -/
def serveHttp (draw : Nat → String) :
    Responder Storage.Server HttpEffect HttpEffect.Answer :=
  fun server effect =>
    match effect with
    | .deliver => (.delivered, server)
    | .server effect => Storage.Server.answer draw server effect

theorem http_serveHttp (draw : Nat → String) (server : Storage.Server) (effect : HttpEffect) :
    Http draw server effect (serveHttp draw server effect).1
      (serveHttp draw server effect).2 := by
  cases effect <;> rfl

def sampleApi : HttpApi .symbolic :=
  ⟨.symbolic, "alice", "connection closed"⟩

def sampleProvider : AsyncStorageApiProvider :=
  { AsyncStorageApiProvider.sample with publicKey := sampleApi.key }

theorem sampleApi_accepted : sampleApi.Accepted sampleProvider :=
  ⟨Storage.Signer.symbolic_agrees, Storage.Libraries.symbolic_nests, rfl⟩

/-- An offer is stored and deleted. -/
def sampleHttpOperations : Bool → StorageOperation
  | false => .createContract AsyncStorageApiProvider.sampleOffer
  | true => .deleteContract AsyncStorageApiProvider.sampleOffer.id

def sampleHttpPool :
    Pool Bool Storage.Server HttpEffect HttpEffect.Answer (Except DlcError StorageResult) :=
  fun index => Thread.start
    (((sampleHttpOperations index).run sampleProvider).run.expand sampleApi.carryOut)

/-- Both nonces are drawn before the requests arrive, of which the second overtakes the
first but is handled after it. -/
def sampleHttpTurns : List Bool :=
  [false, true, true, false, true, true, true, true, false, false, false, false, false, false,
    true, true]

def sampleHttp :
    Pool Bool Storage.Server HttpEffect HttpEffect.Answer (Except DlcError StorageResult) ×
      Storage.Server :=
  sampleHttpPool.schedule (serveHttp fun number => if number = 0 then "first" else "second")
    sampleHttpTurns (.initial .empty)

/-- The program has returned that it is done. -/
def isDone : Program HttpEffect HttpEffect.Answer (Except DlcError StorageResult) → Bool
  | .ret (.ok .done) => true
  | _ => false

theorem eq_ret_of_isDone
    {program : Program HttpEffect HttpEffect.Answer (Except DlcError StorageResult)}
    (done : isDone program = true) : program = ret (.ok .done) := by
  unfold isDone at done
  split at done
  · rfl
  · cases done

theorem isDone_sampleHttp :
    isDone (sampleHttp.1 false).program = true ∧ isDone (sampleHttp.1 true).program = true := by
  decide +kernel

theorem interleaved_over_http_sampleHttp :
    ∃ calls threads, Interleaved Network AnyStep
        (fun index => Thread.start ((sampleHttpOperations index).run sampleProvider).run)
        .empty calls threads sampleHttp.2.db ∧
      (threads false).program = ret (.ok .done) ∧ (threads true).program = ret (.ok .done) := by
  obtain ⟨calls, threads, run, returned⟩ :=
    interleaved_over_http (fun _ => sampleApi_accepted)
      (interleaved_schedule (serveHttp _) (http_serveHttp _) sampleHttpTurns
        (metAlong_anyStep _ _ sampleHttpPool (.initial .empty)) .idle) [false, true]
  obtain ⟨first, second⟩ := isDone_sampleHttp
  exact ⟨calls, threads, run, returned false (by simp) _ (eq_ret_of_isDone first),
    returned true (by simp) _ (eq_ret_of_isDone second)⟩

end Clients

end DlcStack
