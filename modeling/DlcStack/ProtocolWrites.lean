import DlcStack.EffectProjection
import DlcStack.ManagerRaces
import DlcStack.ManagerRecords
import DlcStack.ProtocolParties

/-!
# What a wallet acts on

Whatever happens to its store meanwhile, a call of a wallet writes a record and hands
over a transaction only after it has read certain records and received certain
answers.  The router wallet signs or fails what it read as an offer, and no call but a
periodic check writes the record of a funded contract.
-/

namespace DlcStack

/-- The states of a contract whose funding transaction was found on the blockchain. -/
def DlcContract.isFunded : DlcContract → Bool
  | .confirmed _ => true
  | .preClosed _ => true
  | .closed _ => true
  | .refunded _ => true
  | _ => false

namespace LinkManager

namespace WalletRequest

/-- The requests that hand over a transaction. -/
def isSend : WalletRequest → Bool
  | sendTransaction _ => true
  | _ => false

/-- The requests that neither write nor hand over a transaction. -/
def isQuiet (request : WalletRequest) : Bool :=
  !request.isWrite && !request.isSend

end WalletRequest

end LinkManager

namespace Protocol

open Program hiding ask
open LinkManager

/-- The steps have read the record. -/
inductive Seen (steps : List WalletStep) (contract : DlcContract) : Prop
  | got {id : ContractId} (reported : Reported steps (.getContract id) (some contract))
  | listed (read : ReadAs steps contract)

theorem Seen.append {steps : List WalletStep} {contract : DlcContract}
    (seen : Seen steps contract) (later : List WalletStep) :
    Seen (steps ++ later) contract := by
  cases seen with
  | got reported => exact .got (reported.append later)
  | listed read => exact .listed (read.append later)

/-- What the router wallet writes. -/
inductive RouterWrites (funding : Funding) (manager : Manager) (past : List WalletStep) :
    WalletRequest → Prop
  | offers {offered : OfferedContract} (drawn : funding.transactions offered.id = none) :
      RouterWrites funding manager past (.createContract offered)
  | signs {signed : SignedContract}
      (seen : Seen past (.offered signed.acceptedContract.offeredContract))
      (numbered : funding.Numbers signed.acceptedContract) :
      RouterWrites funding manager past (.updateContract (.signed signed))
  | fails {failed : FailedAcceptContract} (seen : Seen past (.offered failed.offeredContract)) :
      RouterWrites funding manager past (.updateContract (.failedAccept failed))
  | checks {source target : DlcContract} (read : ReadAs past source)
      (warranted : Warranted manager past source target) :
      RouterWrites funding manager past (.updateContract target)

/-- What a browser wallet writes. -/
inductive BrowserWrites (manager : Manager) (past : List WalletStep) : WalletRequest → Prop
  | receives {offered : OfferedContract} :
      BrowserWrites manager past (.createContract offered)
  | moves {target : DlcContract} (unfunded : target.isFunded = false) :
      BrowserWrites manager past (.updateContract target)
  | checks {source target : DlcContract} (read : ReadAs past source)
      (warranted : Warranted manager past source target) :
      BrowserWrites manager past (.updateContract target)

/-- The transaction funds a contract that was verified and then stored as signed. -/
def Countersigned (past : List WalletStep) (transaction : Transaction) : Prop :=
  ∃ (signed : SignedContract) (message : SignDlc) (verified : SignedContract × Transaction),
    Reported past (.verifySignedContract signed.acceptedContract message) verified ∧
      Reported past (.updateContract (.signed signed)) () ∧
        transaction.txid = signed.acceptedContract.dlcTransactions.fund.txid

/-- What the router wallet writes and hands over. -/
structure RouterActs (funding : Funding) (manager : Manager) (past : List WalletStep)
    (step : WalletStep) : Prop where
  writes : step.request.isWrite = true → RouterWrites funding manager past step.request
  sends : ∀ transaction, step.request = .sendTransaction transaction →
    ¬ funding.Ours transaction.txid

/-- What a browser wallet writes and hands over. -/
structure BrowserActs (funding : Funding) (manager : Manager) (past : List WalletStep)
    (step : WalletStep) : Prop where
  writes : step.request.isWrite = true → BrowserWrites manager past step.request
  sends : ∀ transaction, step.request = .sendTransaction transaction →
    funding.Ours transaction.txid → Countersigned past transaction

/-! ## Rules -/

section Rules

variable {funding : Funding} {good : List WalletStep → WalletStep → Prop}
  {α β : Type} {post : List WalletStep → Except DlcError α → ContractStore → Prop}
  {past : List WalletStep} {store : ContractStore}

/-- The rule of a quiet request: a failure ends the program. -/
theorem always_quiet_bind {request : WalletRequest} {rest : request.Reply → ManagerM α}
    (goodQuiet : ∀ past step, step.request.isQuiet = true → good past step)
    (quiet : request.isQuiet = true)
    (replied : ∀ reply before after, funding.Surroundings before request (.ok reply) after →
      Always funding.Surroundings (fun _ _ => True) good post
        (past ++ [⟨before, request, .ok reply, after⟩]) after (rest reply).run)
    (failed : ∀ past error store, post past (.error error) store) :
    Always funding.Surroundings (fun _ _ => True) good post past store
      (LinkManager.ask request >>= rest).run := by
  refine always_ask_bind fun before _ answer after served => ⟨goodQuiet _ _ quiet, ?_⟩
  cases answer with
  | ok reply => exact replied reply before after served
  | error error => exact failed _ error after

/-- The rule of a quiet request whose failure the program handles. -/
theorem always_try_bind {request : WalletRequest}
    {rest : Except DlcError request.Reply → ManagerM α}
    (goodQuiet : ∀ past step, step.request.isQuiet = true → good past step)
    (quiet : request.isQuiet = true)
    (answered : ∀ answer before after, funding.Surroundings before request answer after →
      Always funding.Surroundings (fun _ _ => True) good post
        (past ++ [⟨before, request, answer, after⟩]) after (rest answer).run) :
    Always funding.Surroundings (fun _ _ => True) good post past store
      (ExceptT.lift (LinkManager.ask request).run >>= rest).run := by
  refine (always_run_lift_bind _ _).mpr ((always_ask _ _).mpr ?_)
  intro before _ answer after served
  exact ⟨goodQuiet _ _ quiet, answered answer before after served⟩

/-- The rule of a program that makes quiet requests only. -/
theorem always_of_quiet {program : Program WalletRequest WalletRequest.Answer α}
    {env : Environment ContractStore WalletRequest WalletRequest.Answer}
    (goodQuiet : ∀ past step, step.request.isQuiet = true → good past step)
    (asks : Asks (fun request => request.isQuiet = true) program) :
    Always env (fun _ _ => True) good (fun _ _ _ => True) past store program :=
  asks.always_past (fun _ => True) (fun past step quiet _ => ⟨goodQuiet past step quiet, trivial⟩)
    trivial

/-- The rule of reading a contract in a state. -/
theorem always_getContractInState {manager : Manager} {id : ContractId}
    {inState : DlcContract → Option β} {state : String} {peer : Option PublicKey}
    {rest : β → ManagerM α}
    (goodQuiet : ∀ past step, step.request.isQuiet = true → good past step)
    (found : ∀ contract value past store,
      Reported past (.getContract id) (some contract) → inState contract = some value →
        Always funding.Surroundings (fun _ _ => True) good post past store (rest value).run)
    (failed : ∀ past error store, post past (.error error) store) :
    Always funding.Surroundings (fun _ _ => True) good post past store
      (getContractInState manager id inState state peer >>= rest).run := by
  unfold getContractInState
  rw [bind_assoc]
  refine always_quiet_bind goodQuiet rfl (fun reply before after _ => ?_) failed
  have reported := reported_last past before after (.getContract id) reply
  cases reply with
  | none => exact failed _ _ _
  | some contract =>
      dsimp only
      split_ifs
      · exact failed _ _ _
      · cases inHand : inState contract with
        | none => exact failed _ _ _
        | some value => exact found contract value _ _ reported inHand

end Rules

/-! ## The periodic check -/

/-- The request hands over no transaction that the router wallet and a browser wallet fund a
contract with. -/
def Harmless (funding : Funding) (request : WalletRequest) : Prop :=
  ∀ transaction, request = .sendTransaction transaction → ¬ funding.Ours transaction.txid

theorem harmless_of_isSend {funding : Funding} {request : WalletRequest}
    (other : request.isSend = false) : Harmless funding request := by
  rintro transaction rfl
  cases other

section PeriodicCheck

variable {funding : Funding} {manager : Manager} {past : List WalletStep}
  {store : ContractStore}

/-- The program hands over settlements only, whatever happens to the store meanwhile. -/
def Settles (funding : Funding) {α : Type} (past : List WalletStep) (store : ContractStore)
    (program : Program WalletRequest WalletRequest.Answer α) : Prop :=
  Always funding.Surroundings (fun _ _ => True)
    (fun _ step => Harmless funding step.request) (fun _ _ _ => True) past store program

theorem settles_of_asks {α : Type} {program : Program WalletRequest WalletRequest.Answer α}
    (asks : Asks (Harmless funding) program) : Settles funding past store program :=
  asks.always_past (fun _ => True) (fun _ _ harmless _ => ⟨harmless, trivial⟩) trivial

/-- The rule of a request for a settlement. -/
theorem settles_ask_bind {α : Type} {request : WalletRequest}
    {rest : request.Reply → ManagerM α} (other : request.isSend = false)
    (replied : ∀ reply before after, funding.Promised ⟨before, request, .ok reply, after⟩ →
      Asks (Harmless funding) (rest reply).run) :
    Settles funding past store (LinkManager.ask request >>= rest).run := by
  refine always_ask_bind fun before _ answer after served => ⟨harmless_of_isSend other, ?_⟩
  cases answer with
  | ok reply => exact settles_of_asks (replied reply before after served.2)
  | error error => trivial

theorem settles_of_noSend {check : ManagerM Bool}
    (asks : Asks (fun request => request.isSend = false) check.run) :
    Settles funding past store check.run :=
  settles_of_asks (asks.mono fun _ => harmless_of_isSend)

theorem settles_checkSignedContract (contract : SignedContract) :
    Settles funding past store (checkSignedContract contract).run := by
  refine settles_of_noSend ?_
  unfold checkSignedContract
  refine asks_run_bind (asks_perform rfl) fun confirmations => ?_
  split_ifs
  · exact asks_run_bind (asks_perform rfl) fun _ => asks_pure _
  · exact asks_pure _

theorem settles_checkPreclosedContract (contract : PreClosedContract) :
    Settles funding past store (checkPreclosedContract manager contract).run := by
  refine settles_of_noSend ?_
  unfold checkPreclosedContract
  refine asks_run_bind (asks_perform rfl) fun confirmations => ?_
  split_ifs
  · exact asks_run_bind (asks_perform rfl) fun _ => asks_pure _
  · exact asks_pure _

theorem settles_sendRefund (contract : SignedContract) :
    Settles funding past store (sendRefund contract).run := by
  unfold sendRefund
  refine settles_ask_bind rfl fun refund before after promised => ?_
  refine asks_perform ?_
  rintro _ ⟨⟩
  exact promised

theorem settles_checkRefund (contract : SignedContract) :
    Settles funding past store (checkRefund contract).run := by
  unfold checkRefund
  refine always_run_seq (settles_of_asks (asks_perform (harmless_of_isSend rfl)))
    fun unixtime past store => ?_
  dsimp only
  split_ifs
  · refine always_run_seq (settles_of_asks (asks_perform (harmless_of_isSend rfl)))
      fun confirmations past store => always_run_seq ?_ fun _ past store => ?_
    · split_ifs
      · exact settles_sendRefund contract
      · trivial
    · exact settles_of_asks (asks_perform (harmless_of_isSend rfl))
  · trivial

theorem settles_checkConfirmedContract (contract : SignedContract) :
    Settles funding past store (checkConfirmedContract manager contract).run := by
  unfold checkConfirmedContract
  have looks : Asks (Harmless funding) (getClosableContractInfo manager contract).run := by
    refine (asks_getClosableContractInfo manager contract).mono ?_
    rintro _ ⟨oracle, eventId, rfl⟩
    exact harmless_of_isSend rfl
  refine (always_run_lift_bind _ _).mpr ((settles_of_asks looks).post_mono ?_)
  intro past found store _
  have refund : Settles funding past store (do
      let _ ← checkRefund contract
      return false : ManagerM Bool).run :=
    always_run_seq (settles_checkRefund contract) fun _ _ _ => trivial
  cases found with
  | error error => exact refund
  | ok found =>
      cases found with
      | none => exact refund
      | some found =>
          obtain ⟨info, adaptor, attestations⟩ := found
          refine settles_ask_bind rfl fun cet before after promised => ?_
          have recorded (closed : DlcContract) : Asks (Harmless funding) (do
              let _ ← LinkManager.ask (.updateContract closed)
              return true : ManagerM Bool).run :=
            asks_run_bind (asks_perform (harmless_of_isSend rfl)) fun _ => asks_pure _
          refine asks_closeContract_bind _ _ _ _ (harmless_of_isSend rfl) ?_
            (recorded _) (recorded _)
          rintro _ ⟨⟩
          exact promised

theorem settles_periodicCheck :
    Settles funding past store (LinkManager.periodicCheck manager).run := by
  have phase {γ : Type} {check : γ → ManagerM Bool} {accepted : γ → AcceptedContract}
      (listing : WalletRequest) (select : listing.Reply → List γ)
      (other : listing.isSend = false) {past : List WalletStep} {store : ContractStore}
      (each : ∀ contract past store, Settles funding past store (check contract).run) :
      Settles funding past store (do
        let contracts ← LinkManager.ask listing
        checkEach check accepted (select contracts) : ManagerM (List Report)).run :=
    always_run_seq (settles_of_asks (asks_perform (harmless_of_isSend other)))
      fun contracts past store => always_checkEach (fun _ _ => True) (fun _ _ _ _ => trivial)
        (fun contract past store _ => each contract past store) fun _ _ => trivial
  refine always_run_seq (phase .getSignedContracts id rfl
    fun contract _ _ => settles_checkSignedContract contract) fun _ past store => ?_
  refine always_run_seq (phase .getConfirmedContracts
    (List.filter fun contract => contract.channelId.isNone) rfl
    fun contract _ _ => settles_checkConfirmedContract contract) fun _ past store => ?_
  exact always_run_seq (phase .getPreclosedContracts id rfl
    fun contract _ _ => settles_checkPreclosedContract contract) fun _ _ _ => trivial

/-- A periodic check writes what it is warranted to, and hands over settlements only. -/
theorem always_periodicCheck_acts :
    Always funding.Surroundings (fun _ _ => True)
      (fun past step => Justified manager past step ∧ Harmless funding step.request)
      (fun _ _ _ => True) past store (LinkManager.periodicCheck manager).run := by
  have writes : Always funding.Surroundings (fun _ _ => True) (Justified manager)
      (fun _ _ _ => True) past store (LinkManager.periodicCheck manager).run :=
    (asks_periodicCheck manager).always_env always_periodicCheck
      fun _ _ _ _ stays served => served.1.world (isMoved_of_stays stays)
  exact (writes.and settles_periodicCheck).post_mono fun _ _ _ _ => trivial

end PeriodicCheck

/-! ## The calls of the router wallet -/

section Router

variable {funding : Funding} {manager : Manager} {past : List WalletStep}
  {store : ContractStore}

theorem routerActs_quiet (past : List WalletStep) (step : WalletStep)
    (quiet : step.request.isQuiet = true) : RouterActs funding manager past step := by
  simp only [WalletRequest.isQuiet, Bool.and_eq_true, Bool.not_eq_true'] at quiet
  constructor
  · intro writes
    rw [quiet.1] at writes
    cases writes
  · exact harmless_of_isSend quiet.2

/-- A write of the router wallet. -/
theorem routerActs_write {before after : ContractStore} {request : WalletRequest}
    {answer : request.Answer} (writes : RouterWrites funding manager past request)
    (other : request.isSend = false) :
    RouterActs funding manager past ⟨before, request, answer, after⟩ :=
  ⟨fun _ => writes, harmless_of_isSend other⟩

theorem routerActs_of_check {step : WalletStep} (justified : Justified manager past step)
    (harmless : Harmless funding step.request) : RouterActs funding manager past step := by
  refine ⟨fun writes => ?_, harmless⟩
  obtain ⟨source, target, same, read, warranted⟩ := justified writes
  rw [same]
  exact .checks read warranted

theorem always_sendOffer (contractInput : ContractInput) (counterParty : PublicKey)
    (refundDelay : Nat) (protocolFeeBasisPoints : UInt64) (feeAddress : String) :
    Always funding.Surroundings (fun _ _ => True) (RouterActs funding manager)
      (fun _ _ _ => True) past store
      (sendOffer manager contractInput counterParty refundDelay protocolFeeBasisPoints
        feeAddress).run := by
  have quiet {request : WalletRequest} (quiet : request.isQuiet = true)
      {past : List WalletStep} {store : ContractStore} :
      Always funding.Surroundings (fun _ _ => True) (RouterActs funding manager)
        (fun _ _ _ => True) past store (LinkManager.ask request).run :=
    always_of_quiet routerActs_quiet (asks_perform quiet)
  unfold sendOffer
  cases manager.oracles with
  | none => trivial
  | some oracles =>
      refine always_run_seq (quiet rfl) fun _ past store => ?_
      cases contractInput.contractInfos.head? with
      | none => trivial
      | some first =>
          dsimp only
          split_ifs
          · refine always_run_seq (always_of_quiet routerActs_quiet ?_)
              fun announcements past store => ?_
            · exact asks_run_mapM _ fun info => asks_run_mapM _ fun key => asks_perform rfl
            · refine always_quiet_bind routerActs_quiet rfl ?_ fun _ _ _ => trivial
              rintro ⟨offered, message⟩ before after ⟨_, drawn⟩
              refine always_run_seq (quiet rfl) fun _ past store => ?_
              refine always_run_seq ?_ fun _ _ _ => trivial
              refine (always_ask _ _).mpr fun before _ answer after _ => ⟨?_, trivial⟩
              exact routerActs_write (.offers drawn) rfl
          · trivial

/-- A sign message is returned for a contract that was stored as signed. -/
def SignsStored (past : List WalletStep) (message : SignDlc) : Prop :=
  ∃ signed : SignedContract, Reported past (.updateContract (.signed signed)) () ∧
    message.contractId = signed.acceptedContract.contractId

theorem always_onAcceptMessage (acceptMessage : AcceptDlc) (counterParty : PublicKey) :
    Always funding.Surroundings (fun _ _ => True) (RouterActs funding manager)
      (fun past result _ => ∀ message, result = .ok (.sign message) → SignsStored past message)
      past store (onAcceptMessage manager acceptMessage counterParty).run := by
  unfold onAcceptMessage
  refine always_getContractInState routerActs_quiet
    (fun contract offered past store read inState => ?_)
    fun _ _ _ => nofun
  obtain rfl := DlcContract.eq_offered_of_offered? inState
  refine always_try_bind routerActs_quiet rfl fun answer before after served => ?_
  cases answer with
  | error error =>
      refine always_ask_bind fun before _ answer after _ => ⟨?_, ?_⟩
      · exact routerActs_write (.fails (.got (read.append _))) rfl
      · cases answer <;> exact fun _ => nofun
  | ok reply =>
      obtain ⟨signed, message⟩ := reply
      obtain ⟨served, numbered, named⟩ := served
      obtain ⟨rfl, -⟩ := (served.world (by simp)).2 signed message rfl
      refine always_quiet_bind routerActs_quiet rfl (fun network before after _ => ?_)
        fun _ _ _ => nofun
      refine always_quiet_bind routerActs_quiet rfl (fun _ before after _ => ?_)
        fun _ _ _ => nofun
      refine always_ask_bind fun before _ answer after _ => ⟨?_, ?_⟩
      · exact routerActs_write
          (.signs (.got (((read.append _).append _).append _)) numbered) rfl
      · cases answer with
        | error error => exact fun _ => nofun
        | ok reply =>
            rintro _ ⟨⟩
            exact ⟨signed, reported_last _ _ _ _ _, named⟩

theorem always_acceptOffer (wallet : Wallet.RouterWallet) (acceptDlc : AcceptDlc) :
    Always funding.Surroundings (fun _ _ => True) (RouterActs funding wallet.manager)
      (fun past result _ => ∀ message, result = .ok message → SignsStored past message)
      past store (Wallet.acceptOffer wallet acceptDlc).run := by
  unfold Wallet.acceptOffer
  refine (always_run_bind _ _).mpr ((always_adapt _ _).mpr ?_)
  refine (always_run_bind _ _).mpr ((always_onAcceptMessage acceptDlc _).post_mono ?_)
  intro past result store signs
  cases result with
  | error error => exact fun _ => nofun
  | ok reply =>
      cases reply with
      | sign message =>
          rintro _ ⟨⟩
          exact signs message rfl
      | _ => exact fun _ => nofun

theorem asks_getChainFromAttestors (wallet : Wallet.RouterWallet)
    (attestors : List PublicKey) (uuid : String) :
    Asks (fun request => request.isQuiet = true)
      (Wallet.getChainFromAttestors wallet attestors uuid).run := by
  unfold Wallet.getChainFromAttestors
  refine asks_run_lift_bind (asks_mapM _ fun attestor => ?_) fun chains => ?_
  · exact asks_bind (asks_perform rfl) fun _ => asks_pure _
  · cases chains with
    | nil => exact asks_pure _
    | cons first rest =>
        dsimp only
        split_ifs
        · cases first <;> exact asks_pure _
        · exact asks_pure _

theorem asks_postEach (wallet : Wallet.RouterWallet) (attestors : List PublicKey)
    (url : String) (contracts : List (String × Txid)) :
    Asks (fun request => request.isQuiet = true)
      (Wallet.postEach wallet attestors url contracts).run := by
  induction contracts with
  | nil => exact asks_pure _
  | cons contract rest ih =>
      obtain ⟨uuid, txid⟩ := contract
      unfold Wallet.postEach
      refine asks_run_bind (asks_getChainFromAttestors wallet attestors uuid) fun chain => ?_
      exact asks_run_bind (asks_adapt (asks_perform rfl)) fun _ => ih

theorem asks_readReported (updated : List Report) :
    Asks (fun request => request.isQuiet = true) (Wallet.readReported updated) := by
  induction updated with
  | nil => exact asks_pure _
  | cons report rest ih =>
      obtain ⟨id, uuid⟩ := report
      unfold Wallet.readReported
      refine asks_bind (asks_perform rfl) fun answer => asks_bind ih fun found => ?_
      obtain ⟨confirmed, closed⟩ := found
      dsimp only
      split <;> exact asks_pure _

theorem always_wallet_periodicCheck (wallet : Wallet.RouterWallet) :
    Always funding.Surroundings (fun _ _ => True) (RouterActs funding wallet.manager)
      (fun _ _ _ => True) past store (Wallet.periodicCheck wallet).run := by
  unfold Wallet.periodicCheck
  cases wallet.manager.oracles with
  | none => trivial
  | some attestors =>
      refine (always_run_lift_bind _ _).mpr ((always_bind _ _).mpr ?_)
      refine always_periodicCheck_acts.mono
        (fun past step acts => routerActs_of_check acts.1 acts.2) ?_
      intro past updated store _
      have goesOn (updated : List Report) (past : List WalletStep) (store : ContractStore) :
          Always funding.Surroundings (fun _ _ => True) (RouterActs funding wallet.manager)
            (fun _ _ _ => True) past store (do
              let found ← ExceptT.lift (Wallet.readReported updated)
              let _ ← Wallet.postEach wallet attestors wallet.fundedUrl found.1
              let _ ← Wallet.postEach wallet attestors wallet.closedUrl found.2
              return "Success running periodic check" : Wallet.WalletM String).run := by
        refine always_of_quiet routerActs_quiet ?_
        refine asks_run_lift_bind (asks_readReported updated) fun found => ?_
        refine asks_run_bind (asks_postEach wallet attestors _ _) fun _ => ?_
        exact asks_run_bind (asks_postEach wallet attestors _ _) fun _ => asks_pure _
      cases updated with
      | ok updated => exact goesOn updated past store
      | error error => exact goesOn [] past store

theorem always_createNewOffer {library : RouterWallet.OfferLibrary}
    {wallet : Wallet.RouterWallet} {activeNetwork : String} {attestors : List PublicKey}
    {request : Wallet.OfferRequest} {program : Wallet.WalletM OfferDlc}
    (runs : Wallet.createNewOffer library wallet activeNetwork attestors request =
      some program) :
    Always funding.Surroundings (fun _ _ => True) (RouterActs funding wallet.manager)
      (fun _ _ _ => True) past store program.run := by
  unfold Wallet.createNewOffer at runs
  obtain ⟨made, -, same⟩ := Option.bind_eq_some_iff.mp runs
  obtain rfl := Option.some.inj same
  refine always_run_seq ?_ fun input past store => always_run_seq ?_ fun address past store => ?_
  · trivial
  · trivial
  · exact (always_adapt _ _).mpr (always_sendOffer _ _ _ _ _)

/-- What the calls of the router wallet write, hand over and return. -/
theorem always_router {library : RouterWallet.OfferLibrary} {wallet : Wallet.RouterWallet}
    {activeNetwork : String} (call : Wallet.Call) {program : Wallet.WalletM Wallet.Outcome}
    (runs : call.run library wallet activeNetwork = some program) :
    Always funding.Surroundings (fun _ _ => True) (RouterActs funding wallet.manager)
      (fun past result _ => ∀ message, result = .ok (.signed message) → SignsStored past message)
      past store program.run := by
  -- a call that returns no sign message, whatever it does
  have returnsOther {α : Type} {made : Wallet.WalletM α} {outcome : α → Wallet.Outcome}
      (other : ∀ value message, outcome value ≠ .signed message)
      (acts : Always funding.Surroundings (fun _ _ => True) (RouterActs funding wallet.manager)
        (fun _ _ _ => True) past store made.run) :
      Always funding.Surroundings (fun _ _ => True) (RouterActs funding wallet.manager)
        (fun past result _ => ∀ message, result = .ok (.signed message) →
          SignsStored past message) past store (outcome <$> made).run := by
    rw [map_eq_pure_bind]
    refine (always_run_bind _ _).mpr (acts.post_mono fun past result store _ => ?_)
    cases result with
    | error error => exact fun _ => nofun
    | ok value => exact fun message same => absurd (Except.ok.inj same) (other value message)
  cases call with
  | offer body =>
      unfold Wallet.Call.run at runs
      cases oracles : wallet.manager.oracles with
      | none =>
          rw [oracles] at runs
          obtain rfl := Option.some.inj runs
          exact fun _ => nofun
      | some attestors =>
          rw [oracles] at runs
          cases body with
          | error error =>
              obtain rfl := Option.some.inj runs
              exact fun _ => nofun
          | ok request =>
              obtain ⟨made, created, rfl⟩ := Option.map_eq_some_iff.mp runs
              exact returnsOther (fun _ _ => nofun) (always_createNewOffer created)
  | acceptOffer body =>
      cases body with
      | error error =>
          obtain rfl := Option.some.inj runs
          exact fun _ => nofun
      | ok acceptDlc =>
          obtain rfl := Option.some.inj runs
          rw [map_eq_pure_bind]
          refine (always_run_bind _ _).mpr ((always_acceptOffer wallet acceptDlc).post_mono ?_)
          intro past result store signs
          cases result with
          | error error => exact fun _ => nofun
          | ok message =>
              rintro _ ⟨⟩
              exact signs message rfl
  | periodicCheck =>
      obtain rfl := Option.some.inj runs
      exact returnsOther (fun _ _ => nofun) (always_wallet_periodicCheck wallet)
  | getChain eventId =>
      unfold Wallet.Call.run at runs
      cases oracles : wallet.manager.oracles with
      | none =>
          rw [oracles] at runs
          obtain rfl := Option.some.inj runs
          exact fun _ => nofun
      | some attestors =>
          rw [oracles] at runs
          obtain rfl := Option.some.inj runs
          exact returnsOther (fun _ _ => nofun) (always_of_quiet routerActs_quiet
            (asks_getChainFromAttestors wallet attestors eventId))

end Router

/-! ## The calls of the browser wallets -/

section Browser

variable {funding : Funding} {manager : Manager} {past : List WalletStep}
  {store : ContractStore}

theorem browserActs_quiet (past : List WalletStep) (step : WalletStep)
    (quiet : step.request.isQuiet = true) : BrowserActs funding manager past step := by
  simp only [WalletRequest.isQuiet, Bool.and_eq_true, Bool.not_eq_true'] at quiet
  constructor
  · intro writes
    rw [quiet.1] at writes
    cases writes
  · intro transaction same ours
    exact absurd ours (harmless_of_isSend quiet.2 transaction same)

/-- A write of a browser wallet. -/
theorem browserActs_write {before after : ContractStore} {request : WalletRequest}
    {answer : request.Answer} (writes : BrowserWrites manager past request)
    (other : request.isSend = false) :
    BrowserActs funding manager past ⟨before, request, answer, after⟩ :=
  ⟨fun _ => writes, fun transaction same ours =>
    absurd ours (harmless_of_isSend other transaction same)⟩

theorem browserActs_of_check {step : WalletStep} (justified : Justified manager past step)
    (harmless : Harmless funding step.request) : BrowserActs funding manager past step := by
  refine ⟨fun writes => ?_, fun transaction same ours =>
    absurd ours (harmless transaction same)⟩
  obtain ⟨source, target, same, read, warranted⟩ := justified writes
  rw [same]
  exact .checks read warranted

theorem always_onOfferMessage (offeredMessage : OfferDlc) (counterParty : PublicKey) :
    Always funding.Surroundings (fun _ _ => True) (BrowserActs funding manager)
      (fun _ _ _ => True) past store (onOfferMessage offeredMessage counterParty).run := by
  have failed (past : List WalletStep) (error : DlcError) (store : ContractStore) : True :=
    trivial
  unfold onOfferMessage
  refine always_quiet_bind browserActs_quiet rfl (fun _ _ _ _ => ?_) failed
  refine always_quiet_bind browserActs_quiet rfl (fun contract _ _ _ => ?_) failed
  refine always_quiet_bind browserActs_quiet rfl (fun _ _ _ _ => ?_) failed
  refine always_quiet_bind browserActs_quiet rfl (fun found _ _ _ => ?_) failed
  cases found with
  | some other => trivial
  | none =>
      refine (always_ask _ _).mpr fun before _ answer after _ => ⟨?_, trivial⟩
      exact browserActs_write .receives rfl

theorem always_acceptContractOffer (contractId : ContractId) :
    Always funding.Surroundings (fun _ _ => True) (BrowserActs funding manager)
      (fun _ _ _ => True) past store (acceptContractOffer manager contractId).run := by
  have failed (past : List WalletStep) (error : DlcError) (store : ContractStore) : True :=
    trivial
  unfold acceptContractOffer
  refine always_getContractInState browserActs_quiet (fun _ offered _ _ _ _ => ?_) failed
  refine always_quiet_bind browserActs_quiet rfl (fun reply _ _ _ => ?_) failed
  obtain ⟨accepted, message⟩ := reply
  refine always_quiet_bind browserActs_quiet rfl (fun network _ _ _ => ?_) failed
  refine always_quiet_bind browserActs_quiet rfl (fun _ _ _ _ => ?_) failed
  refine always_run_seq ((always_ask _ _).mpr ?_) fun _ _ _ => trivial
  exact fun before _ answer after _ => ⟨browserActs_write (.moves rfl) rfl, trivial⟩

theorem always_onSignMessage (signMessage : SignDlc) (peer : PublicKey) :
    Always funding.Surroundings (fun _ _ => True) (BrowserActs funding manager)
      (fun _ _ _ => True) past store (onSignMessage manager signMessage peer).run := by
  unfold onSignMessage
  refine always_getContractInState browserActs_quiet
    (fun _ accepted past _ _ _ => ?_) fun _ _ _ => trivial
  refine always_try_bind browserActs_quiet rfl fun answer before after served => ?_
  cases answer with
  | error error =>
      refine always_run_seq ((always_ask _ _).mpr ?_) fun _ _ _ => trivial
      exact fun before _ answer after _ => ⟨browserActs_write (.moves rfl) rfl, trivial⟩
  | ok reply =>
      obtain ⟨signed, fundTx⟩ := reply
      obtain ⟨served, funds⟩ := served
      obtain rfl := (served.world (by simp)).2 signed fundTx rfl
      have verified := reported_last past before after
        (.verifySignedContract signed.acceptedContract signMessage) (signed, fundTx)
      refine always_ask_bind fun second _ answer third _ =>
        ⟨browserActs_write (.moves rfl) rfl, ?_⟩
      cases answer with
      | error error => trivial
      | ok _ =>
          refine (always_ask _ _).mpr fun before _ answer after _ => ⟨⟨nofun, ?_⟩, trivial⟩
          rintro transaction ⟨⟩ ours
          exact ⟨signed, signMessage, (signed, fundTx), verified.append _,
            reported_last _ _ _ _ _, funds⟩

theorem always_rejectOffer (contractId : String) :
    Always funding.Surroundings (fun _ _ => True) (BrowserActs funding manager)
      (fun _ _ _ => True) past store (LinkManager.rejectOffer contractId).run := by
  unfold LinkManager.rejectOffer
  cases readContractId contractId with
  | none => trivial
  | some id =>
      refine always_quiet_bind browserActs_quiet rfl (fun found _ _ _ => ?_) fun _ _ _ => trivial
      rcases found with _ | (contract | _ | _ | _ | _ | _ | _ | _ | _ | _) <;> try trivial
      refine (always_ask _ _).mpr fun before _ answer after _ => ⟨?_, trivial⟩
      exact browserActs_write (.moves rfl) rfl

/-- What the calls of a browser wallet write and hand over. -/
theorem always_browser (call : JsDlcInterface.Call) :
    Always funding.Surroundings (fun _ _ => True) (BrowserActs funding manager)
      (fun _ _ _ => True) past store (call.run manager).run := by
  have maps {α γ : Type} {ε : Type}
      {made : ExceptT ε (Program WalletRequest WalletRequest.Answer) α} (change : α → γ)
      (acts : Always funding.Surroundings (fun _ _ => True) (BrowserActs funding manager)
        (fun _ _ _ => True) past store made.run) :
      Always funding.Surroundings (fun _ _ => True) (BrowserActs funding manager)
        (fun _ _ _ => True) past store (change <$> made).run := by
    rw [map_eq_pure_bind]
    exact always_run_seq acts fun _ _ _ => trivial
  have parses {α : Type} (json : Except String α) :
      Always funding.Surroundings (fun _ _ => True) (BrowserActs funding manager)
        (fun _ _ _ => True) past store (JsDlcInterface.parsed json).run := by
    cases json <;> trivial
  cases call with
  | acceptOffer offerJson =>
      refine maps _ ((always_adapt _ _).mpr (always_run_seq (parses offerJson) ?_))
      intro offer past store
      refine always_run_seq ((always_adapt _ _).mpr ?_) fun _ past store => ?_
      · exact always_run_seq (always_onOfferMessage offer _) fun _ _ _ => trivial
      · exact always_run_seq ((always_adapt _ _).mpr (always_acceptContractOffer _))
          fun _ _ _ => trivial
  | countersignAndBroadcast signJson =>
      refine maps _ ((always_adapt _ _).mpr (always_run_seq (parses signJson) ?_))
      intro sign past store
      refine always_run_seq ((always_adapt _ _).mpr ?_) fun _ past store => ?_
      · exact always_run_seq (always_onSignMessage sign _) fun _ _ _ => trivial
      · refine always_of_quiet browserActs_quiet ?_
        refine asks_run_bind (asks_adapt (asks_perform rfl)) fun contracts => ?_
        split <;> exact asks_pure _
  | rejectOffer contractId =>
      exact maps _ ((always_adapt _ _).mpr ((always_adapt _ _).mpr (always_rejectOffer contractId)))
  | periodicCheck =>
      refine maps _ (always_run_seq ((always_adapt _ _).mpr ?_) fun _ _ _ => trivial)
      exact always_periodicCheck_acts.mono
        (fun past step acts => browserActs_of_check acts.1 acts.2) fun _ _ _ => id

end Browser

end Protocol

end DlcStack
