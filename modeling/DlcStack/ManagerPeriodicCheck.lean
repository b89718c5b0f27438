import DlcStack.ManagerEnvironment

/-!
# The periodic check

`Manager::periodic_check` with the three loops it runs and the checks they make
of one contract.  The attestors of a contract are asked at the same time by the
source; here they are asked one after the other, which no answer depends on.
-/

namespace DlcStack

namespace LinkManager

open Program

/-- `NB_CONFIRMATIONS` -/
def nbConfirmations : Nat := 6

/-- `check_signed_contract` -/
def checkSignedContract (contract : SignedContract) : ManagerM Bool := do
  let confirmations ← ask (.getTransactionConfirmations
    contract.acceptedContract.dlcTransactions.fund.txid)
  if nbConfirmations ≤ confirmations then
    let _ ← ask (.updateContract (.confirmed contract))
    return true
  else
    return false

/-- The future that `get_closable_contract_info` makes of each announcement. -/
def indexedAttestation (manager : Manager) (oracles : List PublicKey)
    (announcement : OracleAnnouncement) (index : Nat) :
    ManagerM (Nat × OracleAttestation) :=
  if announcement.oraclePublicKey ∈ oracles then do
    let attestation ← ExceptT.adapt (fun error => .oracleError (manager.display error))
      (ask (.getAttestation announcement.oraclePublicKey announcement.eventId))
    return (index, attestation)
  else
    throw (.invalidParameters "Unknown oracle public key")

/-- The loop of `get_closable_contract_info`: the first contract info for which
enough attestors answer. -/
def findClosable (manager : Manager) (oracles : List PublicKey) :
    List (ContractInfo × AdaptorInfo) →
    Program WalletRequest WalletRequest.Answer
      (Option (ContractInfo × AdaptorInfo × List (Nat × OracleAttestation)))
  | [] => return none
  | (info, adaptor) :: rest =>
      if info.threshold ≤ info.oracleAnnouncements.length then do
        let answers ← info.oracleAnnouncements.zipIdx.mapM fun (announcement, index) =>
          (indexedAttestation manager oracles announcement index).run
        let attestations := answers.filterMap Except.toOption
        if info.threshold ≤ attestations.length then
          return some (info, adaptor, attestations)
        else
          findClosable manager oracles rest
      else
        findClosable manager oracles rest

/-- `get_closable_contract_info` -/
def getClosableContractInfo (manager : Manager) (contract : SignedContract) :
    ManagerM (Option (ContractInfo × AdaptorInfo × List (Nat × OracleAttestation))) :=
  match manager.oracles with
  | some oracles =>
      ExceptT.lift (findClosable manager oracles
        (contract.acceptedContract.offeredContract.contractInfo.zip
          contract.acceptedContract.adaptorInfos))
  | none =>
      throw (.invalidParameters ("Manager instantiated without oracles, " ++
        "get_closable_contract_info function not supported"))

/-- The closed form of a contract whose CET is settled. -/
def closedContract (manager : Manager) (contract : SignedContract)
    (attestations : Option (List OracleAttestation)) (signedCet : Transaction) :
    ClosedContract where
  attestations := attestations
  signedCet := some signedCet
  contractId := contract.acceptedContract.contractId
  temporaryContractId := contract.acceptedContract.offeredContract.id
  counterPartyId := contract.acceptedContract.offeredContract.counterParty
  pnl := manager.computePnl contract.acceptedContract signedCet

/-- `close_contract` -/
def closeContract (manager : Manager) (contract : SignedContract)
    (signedCet : Transaction) (attestations : List OracleAttestation) :
    ManagerM DlcContract := do
  let confirmations ← ask (.getTransactionConfirmations signedCet.txid)
  if confirmations < 1 then
    let _ ← ask (.sendTransaction signedCet)
    return .preClosed ⟨contract, some attestations, signedCet⟩
  else if confirmations < nbConfirmations then
    return .preClosed ⟨contract, some attestations, signedCet⟩
  else
    return .closed (closedContract manager contract (some attestations) signedCet)

/-- The part of `check_refund` that publishes the refund transaction. -/
def sendRefund (contract : SignedContract) : ManagerM Unit := do
  let signedRefund ← ask (.getSignedRefund contract)
  ask (.sendTransaction signedRefund)

/-- `check_refund` -/
def checkRefund (contract : SignedContract) : ManagerM Unit := do
  let unixtime ← ask .getUnixtime
  let refund := contract.acceptedContract.dlcTransactions.refund
  if refund.lockTime ≤ unixtime then
    let confirmations ← ask (.getTransactionConfirmations refund.txid)
    let _ ← (if confirmations = 0 then sendRefund contract else return ())
    ask (.updateContract (.refunded contract))
  else
    return ()

/-- `check_confirmed_contract` -/
def checkConfirmedContract (manager : Manager) (contract : SignedContract) :
    ManagerM Bool := do
  match ← ExceptT.lift (getClosableContractInfo manager contract).run with
  | .ok (some (info, adaptor, attestations)) =>
      let cet ← ask (.getSignedCet contract info adaptor attestations)
      let closed ← closeContract manager contract cet (attestations.map Prod.snd)
      let _ ← ask (.updateContract closed)
      return true
  | _ =>
      let _ ← checkRefund contract
      return false

/-- `check_preclosed_contract` -/
def checkPreclosedContract (manager : Manager) (contract : PreClosedContract) :
    ManagerM Bool := do
  let confirmations ← ask (.getTransactionConfirmations contract.signedCet.txid)
  if nbConfirmations ≤ confirmations then
    let _ ← ask (.updateContract (.closed (closedContract manager
      contract.signedContract contract.attestations contract.signedCet)))
    return true
  else
    return false

end LinkManager

/-- The event under which a contract is reported: that of the first announcement
of its first contract info. -/
def OfferedContract.eventId? (contract : OfferedContract) : Option String :=
  contract.contractInfo.head?.bind fun info =>
    info.oracleAnnouncements.head?.map (·.eventId)

namespace LinkManager

open Program

abbrev Report := ContractId × String

/-- The loop of the three checks: contracts that were moved are reported, and a
contract whose check fails is skipped. -/
def checkEach {γ : Type} (check : γ → ManagerM Bool)
    (accepted : γ → AcceptedContract) : List γ → ManagerM (List Report)
  | [] => return []
  | contract :: rest => do
      match ← ExceptT.lift (check contract).run with
      | .ok true =>
          match (accepted contract).offeredContract.eventId? with
          | some eventId =>
              let later ← checkEach check accepted rest
              return ((accepted contract).contractId, eventId) :: later
          | none => throw (.invalidState "Missing oracle event ID")
      | .ok false => checkEach check accepted rest
      | .error _ => checkEach check accepted rest

/-- A condition on the steps of every check, under what is known from the steps before
it, holds of a loop. -/
theorem always_checkEach {γ : Type}
    {env : Environment ContractStore WalletRequest WalletRequest.Answer}
    {rely : ContractStore → ContractStore → Prop} {good : List WalletStep → WalletStep → Prop}
    {check : γ → ManagerM Bool} {accepted : γ → AcceptedContract} {contracts : List γ}
    (known : γ → List WalletStep → Prop)
    (persists : ∀ contract past later, known contract past → known contract (past ++ later))
    (each : ∀ contract past store, known contract past →
      Always env rely good (fun _ _ _ => True) past store (check contract).run)
    {past : List WalletStep} {store : ContractStore}
    (initially : ∀ contract ∈ contracts, known contract past) :
    Always env rely good (fun _ _ _ => True) past store
      (checkEach check accepted contracts).run := by
  induction contracts generalizing past store with
  | nil => trivial
  | cons contract rest ih =>
      have checked := each contract past store (initially contract List.mem_cons_self)
      refine (always_run_lift_bind _ _).mpr (checked.post_append.post_mono ?_)
      rintro _ moved store ⟨⟨own, rfl⟩, -⟩
      have later : Always env rely good (fun _ _ _ => True) (past ++ own) store
          (checkEach check accepted rest).run :=
        ih fun other member =>
          persists other past own (initially other (List.mem_cons_of_mem _ member))
      rcases moved with error | _ | _
      · exact later
      · exact later
      · dsimp only
        cases (accepted contract).offeredContract.eventId? with
        | none => trivial
        | some eventId => exact always_run_seq later fun _ _ _ => trivial

/-- `check_signed_contracts` -/
def checkSignedContracts : ManagerM (List Report) := do
  let contracts ← ask .getSignedContracts
  checkEach checkSignedContract (·.acceptedContract) contracts

/-- `check_confirmed_contracts`; contracts of a channel are left out. -/
def checkConfirmedContracts (manager : Manager) : ManagerM (List Report) := do
  let contracts ← ask .getConfirmedContracts
  checkEach (checkConfirmedContract manager) (·.acceptedContract)
    (contracts.filter (·.channelId.isNone))

/-- `check_preclosed_contracts` -/
def checkPreclosedContracts (manager : Manager) : ManagerM (List Report) := do
  let contracts ← ask .getPreclosedContracts
  checkEach (checkPreclosedContract manager) (·.signedContract.acceptedContract)
    contracts

/-- `periodic_check` -/
def periodicCheck (manager : Manager) : ManagerM (List Report) := do
  let confirmed ← checkSignedContracts
  let closed ← checkConfirmedContracts manager
  let settled ← checkPreclosedContracts manager
  return confirmed ++ closed ++ settled

/-! ## A contract to run on -/

/-- An offer whose one attestor announces one event. -/
def sampleOffer (id : ContractId) : OfferedContract :=
  ⟨id, [⟨[⟨"oracle", "event"⟩], 1⟩], "peer"⟩

/-- The offer after both sides have signed. -/
def sampleSigned (temporaryId id : ContractId) : SignedContract :=
  ⟨⟨sampleOffer temporaryId, [.enum], ⟨⟨"fund", 0⟩, ⟨"refund", 100⟩, "script"⟩, id⟩,
    none⟩

def sampleStore (contract : DlcContract) : ContractStore :=
  UniqueTable.empty.put contract

def sampleManager : Manager :=
  ⟨some ["oracle"], fun _ _ => 0, fun _ => "error", fun _ => "peer",
    DlcContract.getContractStateStr⟩

/-- Others that answer every request of a periodic check. -/
def sampleOthers (confirmations : Txid → Nat) (attested : Bool) (unixtime : Nat)
    (down : WalletRequest → Bool) : Others where
  down := down
  answers
    | .getTransactionConfirmations txid => .ok (confirmations txid)
    | .sendTransaction _ => .ok ()
    | .getAttestation oracle _ =>
        if attested then .ok ⟨oracle, ["signature"], ["outcome"]⟩
        else .error (.oracleError "not attested")
    | .getUnixtime => .ok unixtime
    | .getSignedCet .. => .ok ⟨"cet", 0⟩
    | .getSignedRefund contract =>
        .ok contract.acceptedContract.dlcTransactions.refund
    | .getChain .. => .ok "chain"
    | .post .. => .ok ()
    | _ => .error (.ioError "not answered")

end LinkManager

end DlcStack
