import DlcStack.JsDlcInterface
import DlcStack.ManagerLifecycle

/-!
# Funding contracts of the browser wallet

A contract that is accepted is funded with UTXOs that `get_utxos_for_amount`
selects from the list of the wallet.  Nothing marks them as reserved, there or
when the list is replaced.  Contracts that are accepted or signed are funded with
different UTXOs as long as no candidate funds such a contract when an offer is
accepted.
-/

namespace DlcStack

namespace JsDlcInterface

open Program hiding ask
open LinkManager

/-- The contract as it was accepted, while it is `Accepted` or `Signed`. -/
def live? : DlcContract → Option AcceptedContract
  | .accepted contract => some contract
  | .signed contract => some contract.acceptedContract
  | _ => none

/-- The outputs that fund a contract while it is `Accepted` or `Signed`. -/
def fundingOf (funding : AcceptedContract → List OutPoint) (contract : DlcContract) :
    List OutPoint :=
  ((live? contract).map funding).getD []

/-- Different contracts are funded with different outputs. -/
def FundedApart (funding : AcceptedContract → List OutPoint) (store : ContractStore) :
    Prop :=
  ∀ first ∈ store.rows, ∀ second ∈ store.rows, first.getId ≠ second.getId →
    (fundingOf funding first).Disjoint (fundingOf funding second)

/-- The world of a wallet: the crate funds a contract that is accepted with the UTXOs
that it has the wallet select and asks it to lock. -/
def FundingWorld (coinSelect : CoinSelect) (funding : AcceptedContract → List OutPoint)
    (wallet : JsInterfaceWallet) :
    Environment ContractStore WalletRequest WalletRequest.Answer :=
  fun before request answer after =>
    World True before request answer after ∧
      match request, answer with
      | .acceptContract _, .ok (accepted, _) =>
          ∃ amount feeRate selected,
            wallet.getUtxosForAmount coinSelect amount feeRate true = .ok selected ∧
              funding accepted = selected.map (·.outpoint)
      | _, _ => True

/-- When an offer is accepted, no candidate of the coin selection funds a contract that
is `Accepted` or `Signed`. -/
def candidatesFree (funding : AcceptedContract → List OutPoint)
    (wallet : JsInterfaceWallet) (step : WalletStep) : Bool :=
  match step.request with
  | .acceptContract _ =>
      step.before.rows.all fun contract => wallet.candidates.all fun candidate =>
        candidate.outpoint ∉ fundingOf funding contract
  | _ => true

/-! ## Updates -/

section Updates

variable {funding : AcceptedContract → List OutPoint} {store after : ContractStore}
  {target : DlcContract}

theorem mem_of_updateContract (updated : store.updateContract target = some after)
    {contract : DlcContract} (member : contract ∈ after.rows) :
    contract = target ∨ contract ∈ store.rows := by
  rw [UniqueTable.mem_rows_iff, ContractStore.find?_updateContract updated] at member
  split_ifs at member with isTarget
  · exact .inl (Option.some.inj member).symm
  · exact .inr (UniqueTable.mem_rows_iff.mpr member)

theorem mem_of_createContract {offer : OfferedContract}
    (created : store.createContract offer = some after)
    {contract : DlcContract} (member : contract ∈ after.rows) :
    contract = .offered offer ∨ contract ∈ store.rows := by
  rw [UniqueTable.mem_rows_iff, ContractStore.find?_createContract created] at member
  split_ifs at member
  · exact .inl (Option.some.inj member).symm
  · exact .inr (UniqueTable.mem_rows_iff.mpr member)

/-- One contract whose outputs fund no other contract. -/
theorem FundedApart.add (apart : FundedApart funding store)
    (free : ∀ contract ∈ store.rows, contract.getId ≠ target.getId →
      (fundingOf funding target).Disjoint (fundingOf funding contract))
    (added : ∀ contract ∈ after.rows, contract = target ∨ contract ∈ store.rows) :
    FundedApart funding after := by
  intro first firstMem second secondMem different
  rcases added first firstMem with rfl | firstMem
  · rcases added second secondMem with rfl | secondMem
    · exact absurd rfl different
    · exact free second secondMem different.symm
  · rcases added second secondMem with rfl | secondMem
    · exact fun _ ofFirst ofSecond => free first firstMem different ofSecond ofFirst
    · exact apart first firstMem second secondMem different

/-- A contract that is not `Accepted` or `Signed` funds nothing. -/
theorem disjoint_of_live_none (notLive : live? target = none) (contract : DlcContract) :
    (fundingOf funding target).Disjoint (fundingOf funding contract) := by
  simp [fundingOf, notLive]

end Updates

/-! ## Calls -/

/-- Run alone from this store, the program leaves contracts funded apart. -/
def Safe {ε α : Type} (coinSelect : CoinSelect)
    (funding : AcceptedContract → List OutPoint) (wallet : JsInterfaceWallet)
    (past : List WalletStep) (store : ContractStore)
    (program : ExceptT ε (Program WalletRequest WalletRequest.Answer) α) : Prop :=
  Always ((FundingWorld coinSelect funding wallet).restrict
      (candidatesFree funding wallet · = true)) Eq (fun _ _ => True)
    (fun _ _ store => FundedApart funding store) past store program.run

section Rules

variable {ε α β : Type} {coinSelect : CoinSelect}
  {funding : AcceptedContract → List OutPoint} {wallet : JsInterfaceWallet}
  {past : List WalletStep} {store : ContractStore}

theorem Safe.bind
    {program : ExceptT ε (Program WalletRequest WalletRequest.Answer) α}
    {rest : α → ExceptT ε (Program WalletRequest WalletRequest.Answer) β}
    (safe : Safe coinSelect funding wallet past store program)
    (later : ∀ value past store, FundedApart funding store →
      Safe coinSelect funding wallet past store (rest value)) :
    Safe coinSelect funding wallet past store (program >>= rest) := by
  refine (always_run_bind _ _).mpr (safe.post_mono ?_)
  intro past result store apart
  cases result with
  | ok value => exact later value past store apart
  | error error => exact apart

theorem Safe.map {program : ExceptT ε (Program WalletRequest WalletRequest.Answer) α}
    (safe : Safe coinSelect funding wallet past store program) (change : α → β) :
    Safe coinSelect funding wallet past store (change <$> program) := by
  rw [map_eq_pure_bind]
  exact safe.bind fun _ _ _ apart => apart

theorem Safe.adapt {ε' : Type} {convert : ε → ε'}
    {program : ExceptT ε (Program WalletRequest WalletRequest.Answer) α}
    (safe : Safe coinSelect funding wallet past store program) :
    Safe coinSelect funding wallet past store (ExceptT.adapt convert program) :=
  (always_adapt _ _).mpr safe

/-- The rule of a request that reads. -/
theorem safe_read {request : WalletRequest} {rest : request.Reply → ManagerM α}
    (reads : request.isWrite = false) (apart : FundedApart funding store)
    (replied : ∀ reply past,
      FundingWorld coinSelect funding wallet store request (.ok reply) store →
      (∀ answer, candidatesFree funding wallet ⟨store, request, answer, store⟩ = true) →
        Safe coinSelect funding wallet past store (rest reply)) :
    Safe coinSelect funding wallet past store (ask request >>= rest) := by
  refine always_ask_bind fun before moved answer after served => ?_
  obtain rfl := moved
  obtain rfl := served.1.1.unchanged reads
  refine ⟨trivial, ?_⟩
  cases answer with
  | ok reply => exact replied reply _ served.1 fun _ => served.2
  | error error => exact apart

/-- The rule of a request whose failure the program handles. -/
theorem safe_try {request : WalletRequest}
    {rest : Except DlcError request.Reply → ManagerM α}
    (reads : request.isWrite = false)
    (answered : ∀ answer past, World True store request answer store →
      Safe coinSelect funding wallet past store (rest answer)) :
    Safe coinSelect funding wallet past store
      (ExceptT.lift (ask request).run >>= rest) := by
  refine (always_run_lift_bind _ _).mpr ((always_ask _ _).mpr ?_)
  intro before moved answer after served
  obtain rfl := moved
  obtain rfl := served.1.1.unchanged reads
  exact ⟨trivial, answered answer _ served.1.1⟩

/-- The rule of an update of a contract whose outputs fund no other. -/
theorem safe_update {target : DlcContract} {rest : Unit → ManagerM α}
    (apart : FundedApart funding store)
    (free : ∀ contract ∈ store.rows, contract.getId ≠ target.getId →
      (fundingOf funding target).Disjoint (fundingOf funding contract))
    (updated : ∀ past after, FundedApart funding after →
      Safe coinSelect funding wallet past after (rest ())) :
    Safe coinSelect funding wallet past store
      (ask (.updateContract target) >>= rest) := by
  refine always_ask_bind fun before moved answer after served => ?_
  obtain rfl := moved
  have added (effect : store.updateContract target = some after) :
      FundedApart funding after :=
    apart.add free fun _ member => mem_of_updateContract effect member
  refine ⟨trivial, ?_⟩
  rcases served.1.1 with ⟨rfl, effect⟩ | ⟨⟨error, rfl⟩, rfl | ⟨_, effect⟩⟩
  · exact updated _ after (added effect)
  · exact apart
  · exact added effect

/-- The rule of a new offer. -/
theorem safe_create {offer : OfferedContract} {rest : Unit → ManagerM α}
    (apart : FundedApart funding store)
    (created : ∀ past after, FundedApart funding after →
      Safe coinSelect funding wallet past after (rest ())) :
    Safe coinSelect funding wallet past store
      (ask (.createContract offer) >>= rest) := by
  refine always_ask_bind fun before moved answer after served => ?_
  obtain rfl := moved
  have added (effect : store.createContract offer = some after) :
      FundedApart funding after :=
    apart.add (fun contract _ _ => disjoint_of_live_none rfl contract)
      fun _ member => mem_of_createContract effect member
  refine ⟨trivial, ?_⟩
  rcases served.1.1 with ⟨rfl, effect⟩ | ⟨⟨error, rfl⟩, rfl | ⟨_, effect⟩⟩
  · exact created _ after (added effect)
  · exact apart
  · exact added effect

/-- The last request of a program. -/
theorem safe_last {request : WalletRequest}
    (safe : Safe coinSelect funding wallet past store
      (ask request >>= fun reply => return reply)) :
    Safe coinSelect funding wallet past store (ask request) := by
  rwa [bind_pure] at safe

/-- The rule of reading a contract in a state. -/
theorem safe_getContractInState {manager : Manager} {id : ContractId}
    {inState : DlcContract → Option β} {state : String} {peer : Option PublicKey}
    {rest : β → ManagerM α} (apart : FundedApart funding store)
    (found : ∀ contract value past, contract ∈ store.rows →
      inState contract = some value →
        Safe coinSelect funding wallet past store (rest value)) :
    Safe coinSelect funding wallet past store
      (getContractInState manager id inState state peer >>= rest) := by
  unfold getContractInState
  rw [bind_assoc]
  refine safe_read rfl apart fun reply past served _ => ?_
  cases reply with
  | none => exact apart
  | some contract =>
      dsimp only
      split_ifs with stranger
      · exact apart
      · cases inHand : inState contract with
        | none => exact apart
        | some value =>
            refine found contract value past ?_ inHand
            have same := (served.1.2 _ rfl).symm
            exact UniqueTable.mem_rows_iff.mpr
              (by rw [(UniqueTable.find?_eq_some_iff.mp same).2]; exact same)

theorem safe_onOfferMessage (apart : FundedApart funding store) (message : OfferDlc)
    (counterParty : PublicKey) :
    Safe coinSelect funding wallet past store (onOfferMessage message counterParty) := by
  refine safe_read rfl apart fun _ past _ _ => ?_
  refine safe_read rfl apart fun contract past _ _ => ?_
  refine safe_read rfl apart fun _ past _ _ => ?_
  refine safe_read rfl apart fun found past _ _ => ?_
  cases found with
  | some other => exact apart
  | none => exact safe_last (safe_create apart fun _ _ apart => apart)

/-- A contract that is accepted is funded with candidates only. -/
theorem safe_acceptContractOffer {manager : Manager}
    (fromCandidates : coinSelect.FromCandidates) (apart : FundedApart funding store)
    (contractId : ContractId) :
    Safe coinSelect funding wallet past store (acceptContractOffer manager contractId) := by
  refine safe_getContractInState apart fun contract offered past stored found => ?_
  refine safe_read rfl apart fun reply past served free => ?_
  obtain ⟨accepted, message⟩ := reply
  obtain ⟨amount, feeRate, selected, answered, funded⟩ := served.2
  refine safe_read rfl apart fun network past _ _ => ?_
  refine safe_read rfl apart fun _ past _ _ => ?_
  refine safe_update apart ?_ fun _ _ apart => apart
  intro contract member _ outpoint ofAccepted ofOther
  have ofSelected : outpoint ∈ selected.map (·.outpoint) := by
    rw [← funded]
    exact ofAccepted
  obtain ⟨utxo, utxoMem, rfl⟩ := List.mem_map.mp ofSelected
  obtain ⟨candidate, candidateMem, same⟩ :=
    JsInterfaceWallet.candidate_of_getUtxosForAmount fromCandidates answered utxo utxoMem
  have free := free (.ok (accepted, message))
  have candidateFree := List.all_eq_true.mp (List.all_eq_true.mp free contract member)
    candidate candidateMem
  rw [same] at candidateFree
  exact absurd ofOther (of_decide_eq_true candidateFree)

theorem safe_onSignMessage {manager : Manager} (apart : FundedApart funding store)
    (message : SignDlc) (peer : PublicKey) :
    Safe coinSelect funding wallet past store (onSignMessage manager message peer) := by
  refine safe_getContractInState apart fun contract accepted past stored found => ?_
  obtain rfl : contract = .accepted accepted := by
    cases contract <;> cases found
    rfl
  refine safe_try rfl fun answer past served => ?_
  cases answer with
  | error error =>
      exact safe_update apart (fun contract _ _ => disjoint_of_live_none rfl contract)
        fun _ _ apart => apart
  | ok reply =>
      obtain ⟨signed, fundTx⟩ := reply
      obtain rfl := served.2 signed fundTx rfl
      -- the outputs are those of the accepted contract that is stored
      refine safe_update apart (fun contract member different =>
        apart _ stored contract member different.symm) fun past after apart => ?_
      exact safe_last (safe_read rfl apart fun _ _ _ _ => apart)

theorem safe_rejectOffer (apart : FundedApart funding store) (contractId : String) :
    Safe coinSelect funding wallet past store (LinkManager.rejectOffer contractId) := by
  unfold LinkManager.rejectOffer
  cases readContractId contractId with
  | none => exact apart
  | some id =>
      refine safe_read rfl apart fun found past _ _ => ?_
      split
      · exact safe_last (safe_update apart
          (fun contract _ _ => disjoint_of_live_none rfl contract) fun _ _ apart => apart)
      · exact apart

theorem safe_parsed {json : Except String β} (apart : FundedApart funding store) :
    Safe coinSelect funding wallet past store (parsed json) := by
  cases json <;> exact apart

theorem safe_acceptOffer {manager : Manager} (fromCandidates : coinSelect.FromCandidates)
    (apart : FundedApart funding store) (offerJson : Except String OfferDlc) :
    Safe coinSelect funding wallet past store (acceptOffer manager offerJson) := by
  refine Safe.adapt ((safe_parsed apart).bind fun offer past store apart => ?_)
  have received : Safe coinSelect funding wallet past store
      (onDlcMessage manager (.offer offer) staticCounterpartyNodeId) :=
    (safe_onOfferMessage apart offer _).bind fun _ _ _ apart => apart
  refine received.adapt.bind fun _ past store apart => ?_
  exact (safe_acceptContractOffer fromCandidates apart _).adapt.bind fun _ _ _ apart => apart

theorem safe_countersignAndBroadcast {manager : Manager}
    (apart : FundedApart funding store) (signJson : Except String SignDlc) :
    Safe coinSelect funding wallet past store (countersignAndBroadcast manager signJson) := by
  refine Safe.adapt ((safe_parsed apart).bind fun sign past store apart => ?_)
  have received : Safe coinSelect funding wallet past store
      (onDlcMessage manager (.sign sign) staticCounterpartyNodeId) :=
    (safe_onSignMessage apart sign _).bind fun _ _ _ apart => apart
  refine received.adapt.bind fun _ past store apart => ?_
  have listed : Safe coinSelect funding wallet past store (ask .getSignedContracts) :=
    safe_last (safe_read rfl apart fun _ _ _ _ => apart)
  refine listed.adapt.bind fun contracts past store apart => ?_
  split <;> exact apart

/-- A periodic check takes no contract back to `Accepted` or `Signed`. -/
theorem live?_of_warranted {manager : Manager} {steps : List WalletStep}
    {source target : DlcContract} (warranted : Warranted manager steps source target) :
    live? target = none := by
  cases warranted <;> rfl

theorem safe_periodicCheck {manager : Manager} (apart : FundedApart funding store) :
    Safe coinSelect funding wallet past store (LinkManager.periodicCheck manager) := by
  refine always_of_runs fun steps result final run => ?_
  have world : Runs (World True) (LinkManager.periodicCheck manager).run store steps result
      final := run.weaken fun _ _ _ _ served => served.1.1
  refine @PhasesRun.invariant True manager (fun _ store => FundedApart funding store) ?_ ?_
    _ _ _ _ _ (runs_periodicCheck world) (by decide) [] apart
  · exact fun _ _ _ _ _ apart => apart
  · intro past check start final apart run
    rcases run.outcome with
      ⟨rfl, _, _⟩ | ⟨front, target, answer, _, _, warranted, written, _⟩
    · exact apart
    · have added (effect : start.updateContract target = some final) :
          FundedApart funding final :=
        apart.add (fun contract _ _ =>
            disjoint_of_live_none (live?_of_warranted warranted) contract)
          fun _ member => mem_of_updateContract effect member
      rcases written with ⟨_, effect⟩ | ⟨_, rfl | ⟨_, effect⟩⟩
      · exact added effect
      · exact apart
      · exact added effect

theorem safe_call {manager : Manager} (fromCandidates : coinSelect.FromCandidates)
    (apart : FundedApart funding store) (call : Call) :
    Safe coinSelect funding wallet past store (call.run manager) := by
  cases call with
  | acceptOffer offerJson =>
      exact (safe_acceptOffer fromCandidates apart offerJson).map _
  | countersignAndBroadcast signJson =>
      exact (safe_countersignAndBroadcast apart signJson).map _
  | rejectOffer contractId => exact (safe_rejectOffer apart contractId).adapt.adapt.map _
  | periodicCheck =>
      refine Safe.map ?_ _
      exact (safe_periodicCheck apart).adapt.bind fun _ _ _ apart => apart

end Rules

/-! ## Runs of a wallet -/

/-- The store of contracts, and the cache and list of UTXOs. -/
structure JsState where
  store : ContractStore
  chain : EsploraProvider.WalletState

/-- A call that concerns the contracts, or a refresh, with its steps and result. -/
inductive JsEvent where
  | call (session : Session Call ContractStore WalletRequest WalletRequest.Answer
      (Except String Outcome))
  | getWalletBalance (steps : List EsploraProvider.ChainStep) (result : Except String Nat)

/-- What the interface and its wallet are made with. -/
structure Setup where
  manager : Manager
  formats : EsploraProvider.BitcoinFormats
  coinSelect : CoinSelect
  funding : AcceptedContract → List OutPoint

/-- The calls run one after the other, each to its end, with steps that meet a
condition on the wallet. -/
def WalletRuns (interface : Setup)
    (meets : JsInterfaceWallet → WalletStep → Prop) :
    JsState → List JsEvent → JsState → Prop
  | start, [], final => final = start
  | start, .call session :: rest, final =>
      ∃ store,
        Runs ((FundingWorld interface.coinSelect interface.funding
            start.chain.wallet).restrict (meets start.chain.wallet))
          (session.operation.run interface.manager).run start.store session.steps
          session.result store ∧
        WalletRuns interface meets { start with store := store } rest final
  | start, .getWalletBalance steps result :: rest, final =>
      ∃ chain,
        Runs EsploraProvider.World
          (EsploraProvider.getWalletBalance interface.formats
            start.chain.wallet.address).run start.chain steps result chain ∧
        WalletRuns interface meets { start with chain := chain } rest final

theorem WalletRuns.append {interface : Setup} {meets : JsInterfaceWallet → WalletStep → Prop}
    {start middle final : JsState} {front back : List JsEvent}
    (first : WalletRuns interface meets start front middle)
    (second : WalletRuns interface meets middle back final) :
    WalletRuns interface meets start (front ++ back) final := by
  induction front generalizing start with
  | nil =>
      obtain rfl := first
      exact second
  | cons event rest ih =>
      cases event with
      | call session =>
          obtain ⟨store, run, first⟩ := first
          exact ⟨store, run, ih first⟩
      | getWalletBalance steps result =>
          obtain ⟨chain, run, first⟩ := first
          exact ⟨chain, run, ih first⟩

/-- In every run of a wallet in which no candidate funds another `Accepted` or `Signed`
contract when an offer is accepted, such contracts are funded with different outputs. -/
theorem wallet_fundedApart {interface : Setup}
    (fromCandidates : interface.coinSelect.FromCandidates) {start final : JsState}
    {events : List JsEvent} (initially : FundedApart interface.funding start.store)
    (runs : WalletRuns interface
      (fun wallet step => candidatesFree interface.funding wallet step = true)
      start events final) :
    FundedApart interface.funding final.store := by
  induction events generalizing start with
  | nil =>
      obtain rfl := runs
      exact initially
  | cons event rest ih =>
      cases event with
      | call session =>
          obtain ⟨store, run, runs⟩ := runs
          have safe : Safe interface.coinSelect interface.funding start.chain.wallet []
              start.store (session.operation.run interface.manager) :=
            safe_call fromCandidates initially session.operation
          refine ih ?_ runs
          exact (safe.of_runs run).2
      | getWalletBalance steps result =>
          obtain ⟨chain, _, runs⟩ := runs
          refine ih ?_ runs
          exact initially

/-! ## Two offers -/

/-- The first candidate is selected. -/
def sampleSelect : CoinSelect :=
  fun candidates _ _ => .ok (candidates.take 1)

theorem sampleSelect_fromCandidates : sampleSelect.FromCandidates := by
  rintro candidates feeRate amount _ ⟨⟩
  exact List.take_subset 1 candidates

/-- The contract that is made of an offer. -/
def sampleAccepted (id : ContractId) (contract : OfferedContract) : AcceptedContract :=
  { (sampleSigned contract.id id).acceptedContract with offeredContract := contract }

/-- The other party, where the contract that is accepted gets this identifier. -/
def sampleAgreeing (id : ContractId) : Others where
  down _ := false
  answers
    | .acceptContract contract =>
        .ok (sampleAccepted id contract, ⟨contract.id⟩)
    | .getTransactionConfirmations _ => .ok 6
    | request => samplePeer.answers request

/-- An Esplora that lists these UTXOs. -/
def sampleChain (utxos : List EsploraProvider.UtxoResp) :
    Responder EsploraProvider.WalletState EsploraProvider.ChainRequest
      EsploraProvider.ChainRequest.Answer :=
  fun before request =>
    match request with
    | .getAddressUtxo _ => (.ok utxos, before)
    | request => EsploraProvider.serve before request

theorem world_sampleChain (utxos : List EsploraProvider.UtxoResp)
    (before : EsploraProvider.WalletState) (request : EsploraProvider.ChainRequest) :
    EsploraProvider.World before request (sampleChain utxos before request).1
      (sampleChain utxos before request).2 := by
  cases request with
  | getAddressUtxo address => exact rfl
  | _ => exact EsploraProvider.world_serve before _

theorem fundingWorld_serve {funding : AcceptedContract → List OutPoint}
    {wallet : JsInterfaceWallet} {id : ContractId}
    (funded : ∀ contract : OfferedContract,
      funding (sampleAccepted id contract) =
        (wallet.candidates.take 1).map (·.outpoint))
    (store : ContractStore) (request : WalletRequest) :
    FundingWorld sampleSelect funding wallet store request
      (serve (sampleAgreeing id) store request).1
      (serve (sampleAgreeing id) store request).2 := by
  refine ⟨world_serve True _ _ _, ?_⟩
  cases request with
  | acceptContract contract =>
      simp only [serve, sampleAgreeing, keep]
      split_ifs
      · refine ⟨0, none, _, rfl, ?_⟩
        rw [funded, List.map_map]
        rfl
      · trivial
  | _ => trivial

/-- The outputs of the first contract, and those of the others. -/
def sampleFunding (others : List OutPoint) (accepted : AcceptedContract) : List OutPoint :=
  if accepted.contractId = .replicate 32 2 then [⟨"a", 0⟩] else others

def sampleSetup (others : List OutPoint) : Setup :=
  ⟨sampleManager, EsploraProvider.sampleFormats, sampleSelect, sampleFunding others⟩

/-- The offer as it is stored. -/
def sampleReceived (temporaryId : ContractId) : OfferedContract :=
  ⟨temporaryId, (sampleOffer temporaryId).contractInfo, staticCounterpartyNodeId⟩

def sampleOfferCall (temporaryId : ContractId) : Call :=
  .acceptOffer (.ok ⟨temporaryId, (sampleOffer temporaryId).contractInfo⟩)

/-- One call. -/
def sampleCall (id : ContractId) (call : Call) (start : JsState) : List JsEvent × JsState :=
  let ran := eval (serve (sampleAgreeing id)) (call.run sampleManager).run start.store
  ([.call ⟨call, ran.1, ran.2.1⟩], { start with store := ran.2.2 })

theorem walletRuns_sampleCall {others : List OutPoint}
    {meets : JsInterfaceWallet → WalletStep → Prop} {id : ContractId} {call : Call}
    {start : JsState}
    (funded : ∀ contract : OfferedContract,
      sampleFunding others (sampleAccepted id contract) =
        (start.chain.wallet.candidates.take 1).map (·.outpoint))
    (met : ∀ step ∈ (eval (serve (sampleAgreeing id)) (call.run sampleManager).run
      start.store).1, meets start.chain.wallet step) :
    WalletRuns (sampleSetup others) meets start (sampleCall id call start).1
      (sampleCall id call start).2 :=
  ⟨_, (runs_eval (serve (sampleAgreeing id)) (fundingWorld_serve funded) _ _).restrict met,
    rfl⟩

/-- A refresh. -/
def sampleRefresh (utxos : List EsploraProvider.UtxoResp) (start : JsState) :
    List JsEvent × JsState :=
  let ran := eval (sampleChain utxos)
    (EsploraProvider.getWalletBalance EsploraProvider.sampleFormats
      start.chain.wallet.address).run start.chain
  ([.getWalletBalance ran.1 ran.2.1], { start with chain := ran.2.2 })

theorem walletRuns_sampleRefresh {others : List OutPoint}
    {meets : JsInterfaceWallet → WalletStep → Prop} {utxos : List EsploraProvider.UtxoResp}
    {start : JsState} :
    WalletRuns (sampleSetup others) meets start (sampleRefresh utxos start).1
      (sampleRefresh utxos start).2 :=
  ⟨_, runs_eval (sampleChain utxos) (world_sampleChain utxos) _ _, rfl⟩

/-- The first offer is accepted, with the output that is listed. -/
def sampleFirst : List JsEvent × JsState :=
  sampleCall (.replicate 32 2) (sampleOfferCall (.replicate 32 97))
    (sampleRefresh [⟨"a", 0, 1⟩] ⟨UniqueTable.empty, .initial "address"⟩).2

/-- The first contract is signed and broadcast. -/
def sampleSignedFirst : List JsEvent × JsState :=
  sampleCall (.replicate 32 2) (.countersignAndBroadcast (.ok ⟨.replicate 32 2⟩)) sampleFirst.2

/-- The first contract is found confirmed. -/
def sampleConfirmedFirst : List JsEvent × JsState :=
  sampleCall (.replicate 32 2) .periodicCheck sampleSignedFirst.2

/-- A second offer is accepted, after a refresh. -/
def sampleSecond (utxos : List EsploraProvider.UtxoResp) (start : JsState) :
    List JsEvent × JsState :=
  sampleCall (.replicate 32 3) (sampleOfferCall (.replicate 32 98))
    (sampleRefresh utxos start).2

/-- The output of the first contract is spent when another is listed for the second. -/
theorem wallet_fundedApart_sampleSecond :
    FundedApart (sampleFunding [⟨"b", 0⟩])
        (sampleSecond [⟨"b", 0, 1⟩] sampleConfirmedFirst.2).2.store ∧
      (sampleSecond [⟨"b", 0, 1⟩] sampleConfirmedFirst.2).2.store.rows.map
        (·.getContractStateStr) = ["confirmed", "accepted"] := by
  have initially : FundedApart (sampleSetup [⟨"b", 0⟩]).funding UniqueTable.empty := by
    intro first member
    cases member
  have calls (id : ContractId) (call : Call) (start : JsState)
      (funded : ∀ contract : OfferedContract,
        sampleFunding [⟨"b", 0⟩] (sampleAccepted id contract) =
          (start.chain.wallet.candidates.take 1).map (·.outpoint))
      (free : ∀ step ∈ (eval (serve (sampleAgreeing id)) (call.run sampleManager).run
          start.store).1,
        candidatesFree (sampleFunding [⟨"b", 0⟩]) start.chain.wallet step = true) :
      WalletRuns (sampleSetup [⟨"b", 0⟩])
        (fun wallet step => candidatesFree (sampleFunding [⟨"b", 0⟩]) wallet step = true)
        start (sampleCall id call start).1 (sampleCall id call start).2 :=
    walletRuns_sampleCall funded free
  have accepted := walletRuns_sampleRefresh.append
    (calls (.replicate 32 2) (sampleOfferCall (.replicate 32 97))
      (sampleRefresh [⟨"a", 0, 1⟩] ⟨UniqueTable.empty, .initial "address"⟩).2 (fun _ => rfl)
      (by decide +kernel))
  have signed := accepted.append
    (calls (.replicate 32 2) (.countersignAndBroadcast (.ok ⟨.replicate 32 2⟩)) sampleFirst.2
      (fun _ => rfl) (by decide +kernel))
  have confirmed := signed.append
    (calls (.replicate 32 2) .periodicCheck sampleSignedFirst.2 (fun _ => rfl)
      (by decide +kernel))
  have second := (confirmed.append walletRuns_sampleRefresh).append
    (calls (.replicate 32 3) (sampleOfferCall (.replicate 32 98))
      (sampleRefresh [⟨"b", 0, 1⟩] sampleConfirmedFirst.2).2 (fun _ => rfl) (by decide +kernel))
  have apart : FundedApart (sampleSetup [⟨"b", 0⟩]).funding
      (sampleSecond [⟨"b", 0, 1⟩] sampleConfirmedFirst.2).2.store :=
    wallet_fundedApart sampleSelect_fromCandidates initially second
  exact ⟨apart, by decide +kernel⟩

/-- A refresh while the output of the first contract is unspent gives it to the second
as well. -/
theorem wallet_not_fundedApart :
    ∃ events final,
      WalletRuns (sampleSetup [⟨"a", 0⟩]) (fun _ _ => True)
        ⟨UniqueTable.empty, .initial "address"⟩ events final ∧
      ¬ FundedApart (sampleSetup [⟨"a", 0⟩]).funding final.store := by
  have first := walletRuns_sampleRefresh.append (@walletRuns_sampleCall [⟨"a", 0⟩]
    (fun _ _ => True) (.replicate 32 2) (sampleOfferCall (.replicate 32 97))
    (sampleRefresh [⟨"a", 0, 1⟩] ⟨UniqueTable.empty, .initial "address"⟩).2 (fun _ => rfl)
    (fun _ _ => trivial))
  have second := walletRuns_sampleRefresh.append (@walletRuns_sampleCall [⟨"a", 0⟩]
    (fun _ _ => True) (.replicate 32 3) (sampleOfferCall (.replicate 32 98))
    (sampleRefresh [⟨"a", 0, 1⟩] sampleFirst.2).2 (fun _ => rfl) (fun _ _ => trivial))
  refine ⟨_, _, first.append second, fun apart => ?_⟩
  have overlap := apart
    (.accepted (sampleAccepted (.replicate 32 2) (sampleReceived (.replicate 32 97))))
    (by decide +kernel)
    (.accepted (sampleAccepted (.replicate 32 3) (sampleReceived (.replicate 32 98))))
    (by decide +kernel) (by decide)
  exact @overlap ⟨"a", 0⟩ (by decide) (by decide)

end JsDlcInterface

end DlcStack
