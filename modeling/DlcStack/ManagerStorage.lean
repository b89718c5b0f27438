import DlcStack.AsyncStorageContracts
import DlcStack.EffectSimulation
import DlcStack.ManagerMessages
import DlcStack.ManagerRecords

/-!
# The manager on the storage API

The requests that a manager makes of its store, carried out by the provider as requests to
the storage API, among the requests it makes of others.  What the managers of any number of
wallets do there at the same time, with requests and replies lost, they do with a store of
contracts for each wallet, as long as they store no contract that moves to its final
identifier.
-/

namespace DlcStack

namespace LinkManager

open Program hiding ask
open Clients Clients.AsyncStorageApiProvider

/-- The requests to the storage API, and those of the parties to others. -/
abbrev ApiOrOther (Party : Type) := ApiRequest ⊕ Party × WalletRequest

abbrev ApiOrOther.Answer {Party : Type} : ApiOrOther Party → Type :=
  Sum.elim ApiRequest.Answer fun request => request.2.Answer

/-- How the storage API is reached if requests and replies may be lost, or none is. -/
def NetworkWith (lossy : Prop) : Environment Storage.Database ApiRequest ApiRequest.Answer :=
  fun before request answer after => Network before request answer after ∧
    (lossy ∨ lost ⟨before, request, answer, after⟩ = false)

/-- What others answer a party, who see of the database no more than its contracts. -/
def elsewhere {Party : Type} (providers : Party → AsyncStorageApiProvider) :
    Environment Storage.Database (Party × WalletRequest) fun request => request.2.Answer :=
  fun before request answer after => after = before ∧ ∀ store,
    (providers request.1).Represents store before → World True store request.2 answer store

/-- A request that fails though nothing is lost: the contract cannot be encoded, or the store
refuses it.  Others may fail a request as they like. -/
def Refuses (provider : AsyncStorageApiProvider) (store : ContractStore) : WalletRequest → Prop
  | .getContract _ => False
  | .createContract contract =>
      (∃ error, provider.encode (.offered contract) = .error error) ∨
        ContractStore.createContract store contract = none
  | .updateContract contract =>
      (∃ error, provider.encode contract = .error error) ∨
        ContractStore.updateContract store contract = none
  | .getSignedContracts => False
  | .getConfirmedContracts => False
  | .getPreclosedContracts => False
  | _ => True

/-- A store that does what it is asked unless it refuses, or requests or replies may be
lost. -/
def WorldOver (provider : AsyncStorageApiProvider) (lossy : Prop) :
    Environment ContractStore WalletRequest WalletRequest.Answer :=
  fun before request answer after => World lossy before request answer after ∧
    (lossy ∨ ∀ error, answer = .error error → Refuses provider before request)

/-- A request of the manager of a party, carried out by its provider if it is one to the
store. -/
def overApi {Party : Type} (providers : Party → AsyncStorageApiProvider) (party : Party) :
    (request : WalletRequest) →
      Program (ApiOrOther Party) ApiOrOther.Answer request.Answer
  | .getContract id => ((providers party).getContract id).run.amid
  | .createContract contract => ((providers party).createContract contract).run.amid
  | .updateContract contract => ((providers party).updateContract contract).run.amid
  | .getSignedContracts => (providers party).getSignedContracts.run.amid
  | .getConfirmedContracts => (providers party).getConfirmedContracts.run.amid
  | .getPreclosedContracts => (providers party).getPreclosedContracts.run.amid
  | request => @perform (ApiOrOther Party) ApiOrOther.Answer (.inr (party, request))

variable {provider : AsyncStorageApiProvider} {store : ContractStore} {db : Storage.Database}
  {lossy : Prop}

theorem worldOver_ok {request : WalletRequest} {reply : request.Reply}
    {before after : ContractStore} (served : World lossy before request (.ok reply) after) :
    WorldOver provider lossy before request (.ok reply) after :=
  ⟨served, .inr nofun⟩

/-! ## One request to the storage API -/

/-- What an operation makes of the result of a request. -/
def concluded {α β : Type} (rest : α → ProviderM β) (result : Except ApiError α) :
    Program ApiRequest ApiRequest.Answer (Except DlcError β) :=
  (toStorageError (ExceptT.mk (ret result)) >>= rest).run

theorem concluded_ok {α β : Type} (rest : α → ProviderM β) (value : α) :
    concluded rest (.ok value) = (rest value).run :=
  rfl

theorem run_toStorageError_bind {α β : Type} (call : Storage.Call)
    (read : Storage.Response → Except ApiError α) (rest : α → ProviderM β) :
    (toStorageError (StorageApiClient.request call read) >>= rest).run =
      (StorageApiClient.request call read).run >>= concluded rest := by
  unfold toStorageError
  rw [ExceptT.run_bind, ExceptT.run_mk, bind_assoc]
  rfl

/-- An operation that makes one request to the storage API, and what it makes of the
response, carry out what may fail and may end as they do. -/
theorem carriesOut_call {α β : Type} {call : Storage.Call}
    {read : Storage.Response → Except ApiError α} {rest : α → ProviderM β}
    {env : Environment ContractStore WalletRequest WalletRequest.Answer}
    {specified : Program WalletRequest WalletRequest.Answer (Except DlcError β)}
    (fails : lossy → ∀ error store, Reaches env specified store (ret (.error error)) store)
    (answered : ∀ store db, provider.Represents store db → ∃ result after,
      concluded rest (read (call.respond db).1) = ret result ∧
        Reaches env specified store (ret result) after ∧
        provider.Represents after (call.respond db).2)
    (replyLost : lossy → ∀ error store db, provider.Represents store db → ∃ after,
      Reaches env specified store (ret (.error error)) after ∧
        provider.Represents after (call.respond db).2) :
    CarriesOut (NetworkWith lossy) env provider.Represents
      (toStorageError (StorageApiClient.request call read) >>= rest).run specified := by
  have ended (result : Except DlcError β) :
      CarriesOut (NetworkWith lossy) env provider.Represents (ret result)
        (ret result : Program WalletRequest WalletRequest.Answer _) :=
    carriesOut_ret result
  rw [run_toStorageError_bind]
  rintro store db represents nonce unchanged ⟨same, arrives⟩
  obtain rfl : unchanged = db := same
  cases nonce with
  | error error =>
      exact ⟨_, store, fails (arrives.resolve_right nofun) _ store, represents, ended _⟩
  | ok nonce =>
      refine ⟨specified, store, .refl, represents, ?_⟩
      rintro store db represents answer after ⟨served, arrives⟩
      -- The request is answered, or it is lost, or only its reply is.
      rcases served with ⟨rfl, rfl⟩ | ⟨⟨error, rfl⟩, rfl | rfl⟩
      · obtain ⟨result, after, ends, effect, represents⟩ := answered store db represents
        refine ⟨ret result, after, effect, represents, ?_⟩
        change CarriesOut _ _ _ (concluded rest (read (call.respond db).1)) _
        rw [ends]
        exact ended result
      · exact ⟨_, store, fails (arrives.resolve_right nofun) _ store, represents, ended _⟩
      · have lossy := arrives.resolve_right nofun
        obtain ⟨after, effect, represents⟩ := replyLost lossy _ store db represents
        exact ⟨_, after, effect, represents, ended _⟩

/-- A request that fails before it is sent. -/
theorem carriesOut_unsent {env : Environment ContractStore WalletRequest WalletRequest.Answer}
    {request : WalletRequest} {error : DlcError}
    (fails : ∀ store, env store request (.error error) store) :
    CarriesOut (NetworkWith lossy) env provider.Represents (ret (.error error))
      (perform request) :=
  fun store _ represents => ⟨store, .one (fails store), represents⟩

/-! ## The requests to the store -/

theorem request_bind_pure {α β : Type} (call : Storage.Call)
    (read : Storage.Response → Except ApiError α) (finish : α → β) :
    (StorageApiClient.request call read >>= fun value => pure (finish value)) =
      StorageApiClient.request call fun res => (read res).map finish := by
  unfold StorageApiClient.request
  rw [bind_assoc]
  refine congrArg _ (funext fun nonce => ?_)
  rw [bind_assoc]
  refine congrArg _ (funext fun res => ?_)
  change _ = ExceptT.mk (pure ((read res).map finish))
  cases read res <;> rfl

theorem carriesOut_getContract (id : ContractId) :
    CarriesOut (NetworkWith lossy) (WorldOver provider lossy) provider.Represents
      (provider.getContract id).run (perform (WalletRequest.getContract id)) := by
  have fails (lost : lossy) (error : DlcError) (store : ContractStore) :
      WorldOver provider lossy store (.getContract id) (.error error) store :=
    ⟨⟨rfl, nofun⟩, .inl lost⟩
  unfold getContract StorageApiClient.getContract StorageApiClient.getContracts
  rw [request_bind_pure]
  apply carriesOut_call fun lost error store => .one (fails lost error store)
  · intro store db represents
    have read : (StorageApiClient.readContracts ((Storage.Call.getContracts
        ⟨provider.publicKey, some (getContractIdString id), none⟩).respond db).1).map
          List.head? = .ok (provider.record? db id).toList.head? :=
      congrArg (fun rows : List Storage.Contract => Except.ok rows.head?)
        (Storage.Database.getContracts_one db provider.publicKey (getContractIdString id))
    rw [read]
    cases found : provider.record? db id with
    | none =>
        refine ⟨.ok none, store, rfl, .one (worldOver_ok ⟨rfl, ?_⟩), represents⟩
        rintro _ ⟨⟩
        rw [represents.finds, found, Option.bind_none]
    | some row =>
        obtain ⟨contract, decoded, -, stored⟩ := represents.of_record found
        refine ⟨.ok (some contract), store, ?_, .one (worldOver_ok ⟨rfl, ?_⟩), represents⟩
        · change concluded _ (.ok (some row)) = _
          rw [concluded_ok]
          dsimp only
          rw [decoded]
          rfl
        · rintro _ ⟨⟩
          exact stored.symm
  · exact fun lost error store db represents =>
      ⟨store, .one (fails lost error store), represents⟩

theorem carriesOut_createContract (roundTrip : provider.RoundTrip)
    (contract : OfferedContract) :
    CarriesOut (NetworkWith lossy) (WorldOver provider lossy) provider.Represents
      (provider.createContract contract).run
      (perform (WalletRequest.createContract contract)) := by
  have fails (error : DlcError) (store : ContractStore)
      (refused : lossy ∨ Refuses provider store (.createContract contract)) :
      WorldOver provider lossy store (.createContract contract) (.error error) store :=
    ⟨.inr ⟨⟨error, rfl⟩, .inl rfl⟩, refused.imp_right fun refused _ _ => refused⟩
  unfold createContract content
  cases encoded : provider.encode (.offered contract) with
  | error error =>
      exact carriesOut_unsent fun store => fails _ store (.inr (.inl ⟨error, encoded⟩))
  | ok content =>
      unfold StorageApiClient.createContract
      refine carriesOut_call (fun lost error store => .one (fails error store (.inl lost))) ?_ ?_
      · intro store db represents
        change ∃ result after, concluded _ (StorageApiClient.readContract
          ((Storage.Call.createContract (provider.newRequest (.offered contract)
            content)).respond db).1) = _ ∧ _
        rcases represents.create roundTrip encoded with
          ⟨row, after, answered, inserted, represents⟩ | ⟨⟨text, refused⟩, taken, represents⟩
        · rw [answered]
          exact ⟨.ok (), after, rfl, .one (worldOver_ok (.inl ⟨rfl, inserted⟩)), represents⟩
        · rw [refused]
          exact ⟨_, store, rfl, .one (fails _ store (.inr (.inr taken))), represents⟩
      · intro lost error store db represents
        rcases represents.create roundTrip encoded with
          ⟨-, after, -, inserted, represents⟩ | ⟨-, -, represents⟩
        · have served : WorldOver provider lossy store (.createContract contract)
              (.error error) after := ⟨.inr ⟨⟨error, rfl⟩, .inr ⟨lost, inserted⟩⟩, .inl lost⟩
          exact ⟨after, .one served, represents⟩
        · exact ⟨store, .one (fails error store (.inl lost)), represents⟩

/-- An update of a contract that keeps its identifier. -/
theorem carriesOut_updateContract (roundTrip : provider.RoundTrip) {contract : DlcContract}
    (stays : contract.isMoved = false) :
    CarriesOut (NetworkWith lossy) (WorldOver provider lossy) provider.Represents
      (provider.updateContract contract).run
      (perform (WalletRequest.updateContract contract)) := by
  have fails (error : DlcError) (store : ContractStore)
      (refused : lossy ∨ Refuses provider store (.updateContract contract)) :
      WorldOver provider lossy store (.updateContract contract) (.error error) store :=
    ⟨.inr ⟨⟨error, rfl⟩, .inl rfl⟩, refused.imp_right fun refused _ _ => refused⟩
  have unfolded : provider.updateContract contract = (do
      let content ← provider.content contract
      toStorageError (StorageApiClient.updateContract
        (provider.updateRequest contract content))) := by
    cases contract with
    | accepted accepted => cases stays
    | signed signed => cases stays
    | _ => rfl
  have replaces (store : ContractStore) :
      ContractStore.updateContract store contract = store.replace contract := by
    unfold ContractStore.updateContract
    exact if_neg (by rw [stays]; decide)
  rw [unfolded]
  unfold content
  cases encoded : provider.encode contract with
  | error error =>
      exact carriesOut_unsent fun store => fails _ store (.inr (.inl ⟨error, encoded⟩))
  | ok content =>
      unfold StorageApiClient.updateContract
      rw [pure_bind, ← bind_pure (toStorageError _)]
      refine carriesOut_call (fun lost error store => .one (fails error store (.inl lost))) ?_ ?_
      · intro store db represents
        rcases represents.update roundTrip encoded with
          ⟨after, answered, replaced, represents⟩ | ⟨refused, absent, represents⟩
        · have replaced := (replaces store).trans replaced
          rw [answered]
          exact ⟨.ok (), after, rfl, .one (worldOver_ok (.inl ⟨rfl, replaced⟩)), represents⟩
        · have absent := (replaces store).trans (UniqueTable.replace_eq_none_iff.mpr absent)
          rw [refused]
          exact ⟨_, store, rfl, .one (fails _ store (.inr (.inr absent))), represents⟩
      · intro lost error store db represents
        rcases represents.update roundTrip encoded with
          ⟨after, -, replaced, represents⟩ | ⟨-, -, represents⟩
        · have replaced := (replaces store).trans replaced
          have served : WorldOver provider lossy store (.updateContract contract)
              (.error error) after := ⟨.inr ⟨⟨error, rfl⟩, .inr ⟨lost, replaced⟩⟩, .inl lost⟩
          exact ⟨after, .one served, represents⟩
        · exact ⟨store, .one (fails error store (.inl lost)), represents⟩

/-- The contracts in one state are listed. -/
theorem lists_of_represents {α : Type} {state : String} {variant : DlcContract → Option α}
    (names : ∀ contract, (variant contract).isSome ↔ contract.getContractStateStr = state)
    (represents : provider.Represents store db) :
    ∃ contracts, (do return (← provider.decodeAll (db.getContracts
        ⟨provider.publicKey, none, some state⟩)).filterMap variant : ProviderM (List α)).run =
          ret (.ok contracts) ∧ store.Lists variant contracts := by
  have ours : ∀ row ∈ db.contractsOf provider.publicKey, provider.CoherentRow row := by
    intro row member
    obtain ⟨stored, owned⟩ := List.mem_filter.mp member
    exact represents.coherent row stored (of_decide_eq_true owned)
  have decoded : provider.decodeAll (db.getContracts ⟨provider.publicKey, none, some state⟩) =
      pure ((db.getContracts ⟨provider.publicKey, none, some state⟩).filterMap
        provider.contract?) := by
    apply decodeAll_eq
    intro row member
    rw [Storage.Database.getContracts_inState] at member
    exact (ours row (List.mem_filter.mp member).1).imp fun _ holds => holds.1
  refine ⟨(provider.storedContracts db).filterMap variant, ?_,
    (represents.perm.filterMap variant).symm⟩
  rw [decoded, Storage.Database.getContracts_inState, pure_bind,
    (filterMap_rowsInState names ours).1]
  rfl

theorem carriesOut_contractsOf {α : Type} {state : String} {variant : DlcContract → Option α}
    {specified : Program WalletRequest WalletRequest.Answer (Except DlcError (List α))}
    (names : ∀ contract, (variant contract).isSome ↔ contract.getContractStateStr = state)
    {env : Environment ContractStore WalletRequest WalletRequest.Answer}
    (fails : lossy → ∀ error store, Reaches env specified store (ret (.error error)) store)
    (lists : ∀ contracts store, ContractStore.Lists store variant contracts →
      Reaches env specified store (ret (.ok contracts)) store) :
    CarriesOut (NetworkWith lossy) env provider.Represents
      (provider.contractsOf state variant).run specified := by
  unfold contractsOf getContractsByState StorageApiClient.getContracts
  rw [bind_assoc]
  refine carriesOut_call fails ?_ fun lost error store db represents =>
    ⟨store, fails lost error store, represents⟩
  intro store db represents
  obtain ⟨contracts, ends, listed⟩ := lists_of_represents names represents
  exact ⟨.ok contracts, store, ends, lists contracts store listed, represents⟩

theorem carriesOut_getSignedContracts :
    CarriesOut (NetworkWith lossy) (WorldOver provider lossy) provider.Represents
      provider.getSignedContracts.run (perform WalletRequest.getSignedContracts) := by
  refine carriesOut_contractsOf (fun contract => ?_)
    (fun lost error store => .one ⟨⟨rfl, nofun⟩, .inl lost⟩)
    (fun contracts store lists => .one (worldOver_ok ⟨rfl, ?_⟩))
  · cases contract <;> simp [DlcContract.signed?, DlcContract.getContractStateStr]
  · rintro _ ⟨⟩
    exact lists

theorem carriesOut_getConfirmedContracts :
    CarriesOut (NetworkWith lossy) (WorldOver provider lossy) provider.Represents
      provider.getConfirmedContracts.run
      (perform WalletRequest.getConfirmedContracts) := by
  refine carriesOut_contractsOf (fun contract => ?_)
    (fun lost error store => .one ⟨⟨rfl, nofun⟩, .inl lost⟩)
    (fun contracts store lists => .one (worldOver_ok ⟨rfl, ?_⟩))
  · cases contract <;> simp [DlcContract.confirmed?, DlcContract.getContractStateStr]
  · rintro _ ⟨⟩
    exact lists

theorem carriesOut_getPreclosedContracts :
    CarriesOut (NetworkWith lossy) (WorldOver provider lossy) provider.Represents
      provider.getPreclosedContracts.run
      (perform WalletRequest.getPreclosedContracts) := by
  refine carriesOut_contractsOf (fun contract => ?_)
    (fun lost error store => .one ⟨⟨rfl, nofun⟩, .inl lost⟩)
    (fun contracts store lists => .one (worldOver_ok ⟨rfl, ?_⟩))
  · cases contract <;> simp [DlcContract.preClosed?, DlcContract.getContractStateStr]
  · rintro _ ⟨⟩
    exact lists

/-! ## The requests of a manager -/

/-- The requests that name an owner's key. -/
def Names (key : String) : ApiRequest → Prop
  | .requestNonce => True
  | .send _ call => call.owner = some key

theorem asks_request {α : Type} {key : String} {call : Storage.Call}
    {read : Storage.Response → Except ApiError α} (named : call.owner = some key) :
    Asks (Names key) (StorageApiClient.request call read).run := by
  refine asks_run_bind (asks_perform trivial) fun nonce => ?_
  exact asks_run_bind (asks_perform named) fun _ => asks_pure _

theorem asks_toStorageError {α : Type} {key : String} {operation : StorageApiClient α}
    (asks : Asks (Names key) operation.run) : Asks (Names key) (toStorageError operation).run := by
  refine asks_bind asks fun result => ?_
  cases result <;> exact asks_pure _

theorem asks_decodeAll {key : String} (rows : List Storage.Contract) :
    Asks (Names key) (provider.decodeAll rows).run := by
  induction rows with
  | nil => exact asks_pure _
  | cons row rows ih =>
      unfold decodeAll
      cases provider.decode row.content with
      | error error => exact asks_pure _
      | ok contract => exact asks_run_bind ih fun _ => asks_pure _

theorem asks_contractsOf {α : Type} (state : String) (variant : DlcContract → Option α) :
    Asks (Names provider.publicKey) (provider.contractsOf state variant).run :=
  asks_run_bind (asks_run_bind (asks_toStorageError (asks_request rfl)) asks_decodeAll)
    fun _ => asks_pure _

theorem asks_getContract (id : ContractId) :
    Asks (Names provider.publicKey) (provider.getContract id).run := by
  refine asks_run_bind (asks_toStorageError (asks_run_bind (asks_request rfl)
    fun _ => asks_pure _)) fun found => ?_
  cases found with
  | none => exact asks_pure _
  | some row =>
      dsimp only
      cases provider.decode row.content <;> exact asks_pure _

theorem asks_content {α : Type} {key : String} {contract : DlcContract}
    {rest : String → ProviderM α} (later : ∀ content, Asks (Names key) (rest content).run) :
    Asks (Names key) (provider.content contract >>= rest).run := by
  unfold content
  cases provider.encode contract with
  | error error => exact asks_pure _
  | ok content => exact later content

theorem asks_createContract (contract : OfferedContract) :
    Asks (Names provider.publicKey) (provider.createContract contract).run :=
  asks_content fun _ => asks_run_bind (asks_toStorageError (asks_request rfl))
    fun _ => asks_pure _

theorem asks_updateContract (contract : DlcContract) :
    Asks (Names provider.publicKey) (provider.updateContract contract).run := by
  have moved : Asks (Names provider.publicKey) (provider.updateMoved contract).run := by
    refine asks_run_lift_bind (asks_toStorageError (asks_request rfl)) fun _ =>
      asks_content fun content => asks_run_lift_bind (asks_request rfl) fun result => ?_
    cases result with
    | ok _ => exact asks_pure _
    | error error =>
        exact asks_content fun content => asks_run_bind
          (asks_toStorageError (asks_request rfl)) fun _ => asks_pure _
  cases contract with
  | accepted accepted => exact moved
  | signed signed => exact moved
  | _ => exact asks_content fun content => asks_toStorageError (asks_request rfl)

/-- The records of the provider are as they were. -/
def LeavesRows (provider : AsyncStorageApiProvider) (before after : Storage.Database) : Prop :=
  after.contractsOf provider.publicKey = before.contractsOf provider.publicKey

/-- A request with another key leaves the records of a provider as they are. -/
theorem leavesRows_of_names {key : String} (other : provider.publicKey ≠ key)
    {request : ApiRequest} (names : Names key request) {answer : request.Answer}
    {after : Storage.Database} (served : Network db request answer after) :
    LeavesRows provider db after := by
  cases request with
  | requestNonce =>
      obtain rfl : after = db := served
      rfl
  | send nonce call =>
      have kept : LeavesRows provider db (call.respond db).2 := by
        apply (Storage.Call.respond_frame fun member => other ?_).1
        exact Option.some.inj ((Storage.Call.owner_of_written member).symm.trans names)
      rcases served with ⟨-, rfl⟩ | ⟨-, rfl | rfl⟩
      · exact kept
      · rfl
      · exact kept

section Parties

variable {Party : Type} [DecidableEq Party] {providers : Party → AsyncStorageApiProvider}

/-- The stores of the parties, of which each sees its own. -/
abbrev Worlds (Party : Type) :
    Environment (Party → ContractStore) (Party × WalletRequest) fun request => request.2.Answer :=
  apart fun _ => World True

/-- The records of each provider are those of the store of its party. -/
def RepresentsAll (providers : Party → AsyncStorageApiProvider) (stores : Party → ContractStore)
    (db : Storage.Database) : Prop :=
  ∀ party, (providers party).Represents (stores party) db

/-- Each request is carried out, by the provider or by others. -/
theorem carriesOut_overApi (apart : Function.Injective fun party => (providers party).publicKey)
    {party : Party} (roundTrip : (providers party).RoundTrip) {request : WalletRequest}
    (stays : Stays request) :
    CarriesOut (beside Network (elsewhere providers)) (Worlds Party) (RepresentsAll providers)
      (overApi providers party request)
      (@perform (Party × WalletRequest) (fun request => request.2.Answer) (party, request)) := by
  have stored {program : Program ApiRequest ApiRequest.Answer request.Answer}
      (asks : Asks (Names (providers party).publicKey) program)
      (carries : CarriesOut (NetworkWith True) (WorldOver (providers party) True)
        (providers party).Represents program (perform request)) :
      CarriesOut (beside Network (elsewhere providers)) (Worlds Party)
        (RepresentsAll providers) program.amid
        (@perform (Party × WalletRequest) (fun request => request.2.Answer) (party, request)) := by
    have carries := (carries.mono fun _ _ _ _ served => ⟨served, .inl trivial⟩).widen
      fun _ _ _ _ served => served.1
    refine CarriesOut.amid_left (CarriesOut.ofParty (fun _ => World True)
      (fun party => (providers party).Represents) ?_ asks carries) _
    intro request names before answer after served other different store represents
    exact represents.frame (leavesRows_of_names (fun same => different (apart same)) names
      served)
  cases request with
  | getContract id => exact stored (asks_getContract id) (carriesOut_getContract id)
  | createContract contract =>
      exact stored (asks_createContract contract) (carriesOut_createContract roundTrip contract)
  | updateContract contract =>
      exact stored (asks_updateContract contract) (carriesOut_updateContract roundTrip stays)
  | getSignedContracts => exact stored (asks_contractsOf _ _) carriesOut_getSignedContracts
  | getConfirmedContracts => exact stored (asks_contractsOf _ _) carriesOut_getConfirmedContracts
  | getPreclosedContracts => exact stored (asks_contractsOf _ _) carriesOut_getPreclosedContracts
  | _ =>
      apply carriesOut_side
      rintro stores before represents answer after ⟨rfl, served⟩
      refine ⟨stores, .one ⟨?_, fun _ _ => rfl⟩, represents⟩
      exact served (stores party) (represents party)

end Parties

theorem asks_stays {request : WalletRequest} (stays : Stays request) :
    Asks Stays (ask request).run :=
  asks_perform stays

theorem asks_onOfferMessage (offeredMessage : OfferDlc) (counterParty : PublicKey) :
    Asks Stays (onOfferMessage offeredMessage counterParty).run := by
  unfold onOfferMessage
  refine asks_run_bind (asks_stays trivial) fun _ => asks_run_bind (asks_stays trivial)
    fun contract => asks_run_bind (asks_stays trivial) fun _ =>
    asks_run_bind (asks_stays trivial) fun found => ?_
  cases found with
  | some other => exact asks_pure _
  | none => exact asks_stays trivial

theorem asks_rejectOffer (contractId : String) :
    Asks Stays (rejectOffer contractId).run := by
  unfold rejectOffer
  cases readContractId contractId with
  | none => exact asks_pure _
  | some id =>
      refine asks_run_bind (asks_stays trivial) fun found => ?_
      rcases found with _ | contract
      · exact asks_pure _
      · cases contract with
        | offered contract => exact asks_stays rfl
        | _ => exact asks_pure _

theorem asks_sendOffer (manager : Manager) (contractInput : ContractInput)
    (counterParty : PublicKey) (refundDelay : Nat) (protocolFeeBasisPoints : UInt64)
    (feeAddress : String) :
    Asks Stays (sendOffer manager contractInput counterParty refundDelay
      protocolFeeBasisPoints feeAddress).run := by
  unfold sendOffer
  cases manager.oracles with
  | none => exact asks_pure _
  | some oracles =>
      refine asks_run_bind (asks_stays trivial) fun _ => ?_
      cases contractInput.contractInfos.head? with
      | none => exact asks_pure _
      | some first =>
          dsimp only
          split_ifs
          · refine asks_run_bind (asks_run_mapM _ fun _ => asks_run_mapM _ fun _ =>
              asks_stays trivial) fun announcements => ?_
            refine asks_run_bind (asks_stays trivial) fun offered => ?_
            exact asks_run_bind (asks_stays trivial) fun _ =>
              asks_run_bind (asks_stays trivial) fun _ => asks_pure _
          · exact asks_pure _

/-- The operations that store no contract under its final identifier for the first time. -/
def Operation.stays : Operation → Bool
  | sendOffer .. => true
  | onDlcMessage (.offer _) _ => true
  | onDlcMessage .other _ => true
  | periodicCheck => true
  | rejectOffer _ => true
  | _ => false

theorem asks_run_map {α β : Type} {program : ManagerM α} (asks : Asks Stays program.run)
    (finish : α → β) : Asks Stays (finish <$> program).run := by
  rw [map_eq_pure_bind]
  exact asks_run_bind asks fun _ => asks_pure _

theorem Operation.asks_stays {operation : Operation} (stays : operation.stays = true)
    (manager : Manager) : Asks Stays (operation.run manager).run := by
  cases operation with
  | sendOffer => exact asks_run_map (asks_sendOffer ..) _
  | onDlcMessage message counterParty =>
      cases message with
      | offer offer =>
          exact asks_run_map (asks_run_bind (asks_onOfferMessage ..) fun _ => asks_pure _) _
      | other => exact asks_run_map (asks_pure _) _
      | _ => cases stays
  | acceptContractOffer contractId => cases stays
  | periodicCheck => exact asks_run_map (asks_periodicCheck manager) _
  | rejectOffer contractId => exact asks_run_map (asks_rejectOffer contractId) _

section Parties

variable {Party ι : Type} [DecidableEq Party] [DecidableEq ι]
  {providers : Party → AsyncStorageApiProvider}

theorem carriesOut_operation (apart : Function.Injective fun party => (providers party).publicKey)
    {party : Party} (roundTrip : (providers party).RoundTrip) {operation : Operation}
    (stays : operation.stays = true) (manager : Manager) :
    CarriesOut (beside Network (elsewhere providers)) (Worlds Party) (RepresentsAll providers)
      ((operation.run manager).run.expand (overApi providers party))
      ((operation.run manager).run.ofParty party) := by
  have carries := CarriesOut.expand
    (fun _ stays => carriesOut_overApi apart roundTrip stays)
    (Operation.asks_stays stays manager)
  rwa [expand_ofParty] at carries

/-- However the operations of the managers of any number of wallets overlap on the storage
API, and whichever requests and replies are lost, they return what they return, and leave the
contracts that they leave, if each wallet has a store of contracts of its own for which each
request is one step, as long as no contract moves to its final identifier. -/
theorem interleaved_over_api (apart : Function.Injective fun party => (providers party).publicKey)
    (roundTrip : ∀ party, (providers party).RoundTrip) {wallet : ι → Party}
    {managers : ι → Manager} {operations : ι → Operation}
    (stays : ∀ index, (operations index).stays = true)
    {stores : Party → ContractStore} {start final : Storage.Database}
    (represents : ∀ party, (providers party).Represents (stores party) start)
    {trace : List (ι × Step Storage.Database (ApiOrOther Party) ApiOrOther.Answer)}
    {pool : Pool ι Storage.Database (ApiOrOther Party) ApiOrOther.Answer
      (Except DlcError Outcome)}
    (run : Interleaved (beside Network (elsewhere providers)) AnyStep
      (fun index => Thread.start (((operations index).run (managers index)).run.expand
        (overApi providers (wallet index))))
      start trace pool final) (watched : List ι) :
    ∃ requests threads after, Interleaved (Worlds Party) AnyStep
        (fun index => Thread.start
          (((operations index).run (managers index)).run.ofParty (wallet index)))
        stores requests threads after ∧
      (∀ party, (providers party).Represents (after party) final) ∧
      ∀ index ∈ watched, ∀ result, (pool index).program = ret result →
        (threads index).program = ret result := by
  let specified : Pool ι (Party → ContractStore) (Party × WalletRequest)
      (fun request => request.2.Answer) (Except DlcError Outcome) :=
    fun index => Thread.start
      (((operations index).run (managers index)).run.ofParty (wallet index))
  -- Each operation carries out itself, so the operations that overlap do.
  have each (index : ι) : CarriesOut (beside Network (elsewhere providers)) (Worlds Party)
      (RepresentsAll providers)
      (((operations index).run (managers index)).run.expand (overApi providers (wallet index)))
      (specified index).program :=
    carriesOut_operation apart (roundTrip _) (stays index) (managers index)
  have represents : RepresentsAll providers stores start := represents
  obtain ⟨requests, threads, after, simulated, represents, -, returned⟩ :=
    run.carriesOut_returned represents each watched
  exact ⟨requests, threads, after, simulated, represents, returned⟩

end Parties

/-! ### Two wallets that receive the same offer -/

def sampleIncoming : OfferDlc :=
  ⟨Vector.replicate 32 0, []⟩

/-- Others find every offer valid. -/
def sampleElsewhere : (request : WalletRequest) → request.Answer
  | .validateOffer .. => .ok ()
  | .tryFromOfferDlc message counterParty =>
      .ok ⟨message.temporaryContractId, message.contractInfo, counterParty⟩
  | .validateOfferedContract _ => .ok ()
  | _ => .error (.ioError "not answered")

theorem world_sampleElsewhere (store : ContractStore) (request : WalletRequest) :
    World True store request (sampleElsewhere request) store := by
  cases request <;> first
    | exact rfl
    | exact ⟨rfl, nofun⟩
    | exact .inr ⟨⟨_, rfl⟩, .inl rfl⟩

/-- The providers of two wallets, with different keys. -/
def sampleProviders (wallet : Bool) : AsyncStorageApiProvider :=
  sampleFormats.provider (if wallet then "alice" else "bob")

theorem sampleProviders_apart :
    Function.Injective fun wallet => (sampleProviders wallet).publicKey := by
  have all : ∀ first second, (sampleProviders first).publicKey =
      (sampleProviders second).publicKey → first = second := by decide
  exact fun first second => all first second

def serveApi : Responder Storage.Database (ApiOrOther Bool) ApiOrOther.Answer :=
  fun db request =>
    match request with
    | .inl request => deliver db request
    | .inr request => (sampleElsewhere request.2, db)

theorem beside_serveApi (db : Storage.Database) (request : ApiOrOther Bool) :
    beside Network (elsewhere sampleProviders) db request (serveApi db request).1
      (serveApi db request).2 := by
  cases request with
  | inl request => exact network_deliver db request
  | inr request => exact ⟨rfl, fun store _ => world_sampleElsewhere store request.2⟩

def sampleReceiving (_ : Bool) : Operation :=
  .onDlcMessage (.offer sampleIncoming) "peer"

/-- Both wallets take their seven steps in turn. -/
def sampleReceived : Pool Bool Storage.Database (ApiOrOther Bool) ApiOrOther.Answer
    (Except DlcError Outcome) × Storage.Database :=
  Pool.schedule serveApi ((List.replicate 7 [true, false]).flatten)
    (fun wallet => Thread.start (((sampleReceiving wallet).run sampleManager).run.expand
      (overApi sampleProviders wallet))) .empty

/-- The message was processed, and there is nothing to reply. -/
def isProcessed {Req : Type} {Ans : Req → Type} :
    Program Req Ans (Except DlcError Outcome) → Bool
  | .ret (.ok (.reply none)) => true
  | _ => false

theorem eq_ret_of_isProcessed {Req : Type} {Ans : Req → Type}
    {program : Program Req Ans (Except DlcError Outcome)} (processed : isProcessed program = true) :
    program = ret (.ok (.reply none)) := by
  unfold isProcessed at processed
  split at processed
  · rfl
  · cases processed

theorem isProcessed_sampleReceived (wallet : Bool) :
    isProcessed (sampleReceived.1 wallet).program = true := by
  cases wallet <;> decide +kernel

theorem stays_sampleReceiving (wallet : Bool) : (sampleReceiving wallet).stays = true :=
  rfl

theorem interleaved_over_api_sampleReceived :
    ∃ requests threads after, Interleaved (Worlds Bool) AnyStep
        (fun wallet => Thread.start
          (((sampleReceiving wallet).run sampleManager).run.ofParty wallet))
        (fun _ => .empty) requests threads after ∧
      (∀ wallet, (sampleProviders wallet).Represents (after wallet) sampleReceived.2) ∧
      ∀ wallet, (threads wallet).program = ret (.ok (.reply none)) := by
  obtain ⟨requests, threads, after, run, represents, returned⟩ :=
    interleaved_over_api sampleProviders_apart
      (fun wallet => sampleFormats.provider_roundTrip sampleFormats_roundTrip _)
      stays_sampleReceiving (fun wallet => represents_empty _)
      (interleaved_schedule serveApi beside_serveApi _ (metAlong_anyStep ..) .idle) [true, false]
  refine ⟨requests, threads, after, run, represents, fun wallet => ?_⟩
  exact returned wallet (by cases wallet <;> simp) _
    (eq_ret_of_isProcessed (isProcessed_sampleReceived wallet))

end LinkManager

end DlcStack
