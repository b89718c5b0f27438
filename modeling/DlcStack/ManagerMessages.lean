import DlcStack.ManagerPeriodicCheck

/-!
# Offers and messages

The other operations of the `Manager`: making, accepting and rejecting offers,
and the messages of the other party.  Each reads the record that it is about,
asks the crate for the next contract and stores it.
-/

namespace DlcStack

namespace LinkManager

open Program

/-- `FIFTY_YEARS` -/
def fiftyYears : Nat := 86400 * 365 * 50

/-- `{:02x?}` of a contract identifier. -/
def debugId (id : ContractId) : String :=
  "[" ++ ", ".intercalate (id.toList.map fun byte => String.ofList (hexByte byte)) ++ "]"

/-- `get_contract_in_state!` -/
def getContractInState {α : Type} (manager : Manager) (id : ContractId)
    (inState : DlcContract → Option α) (state : String) (peer : Option PublicKey) :
    ManagerM α := do
  match ← ask (.getContract id) with
  | some contract =>
      if ∃ other, peer = some other ∧ contract.getCounterPartyId ≠ other then
        throw (.invalidParameters ("Peer " ++ manager.debugPeer peer ++
          " is not involved with contract " ++ debugId id ++ "."))
      else
        match inState contract with
        | some value => return value
        | none =>
            throw (.invalidState ("Invalid state " ++ manager.debugContract contract ++
              " expected " ++ state ++ "."))
  | none => throw (.invalidParameters "Unknown Contract id.")

/-- `calculate_denominator_from_basis_points` -/
def calculateDenominatorFromBasisPoints (basisPoints : UInt64) : UInt64 :=
  if basisPoints = 0 then 0
  else (100.0 / basisPoints.toFloat * 100.0).toUInt64

/-- `send_offer` -/
def sendOffer (manager : Manager) (contractInput : ContractInput)
    (counterParty : PublicKey) (refundDelay : Nat) (protocolFeeBasisPoints : UInt64)
    (feeAddress : String) : ManagerM OfferDlc :=
  match manager.oracles with
  | none =>
      throw (.invalidParameters
        "Manager instantiated without oracles, send_offer function not supported")
  | some oracles => do
      let _ ← ask (.validateInput contractInput)
      match contractInput.contractInfos.head? with
      | none => throw (.invalidParameters "Contract Input Info missing")
      | some first =>
          if contractInput.contractInfos.all fun info =>
              info.oracles.publicKeys.all (· ∈ oracles) then
            let announcements ← contractInput.contractInfos.mapM fun info =>
              info.oracles.publicKeys.mapM fun publicKey =>
                ask (.getAnnouncement publicKey first.oracles.eventId)
            let (offered, message) ← ask (.offerContract contractInput announcements
              refundDelay counterParty
              (calculateDenominatorFromBasisPoints protocolFeeBasisPoints).toNat feeAddress)
            let _ ← ask (.validateOfferedContract offered)
            let _ ← ask (.createContract offered)
            return message
          else
            throw (.invalidParameters "Unknown oracle public key")

/-- `accept_contract_offer` -/
def acceptContractOffer (manager : Manager) (contractId : ContractId) :
    ManagerM (ContractId × PublicKey × AcceptDlc) := do
  let offered ← getContractInState manager contractId DlcContract.offered? "Offered" none
  let (accepted, message) ← ask (.acceptContract offered)
  let network ← ask .getNetwork
  let _ ← ask (.importAddress accepted.dlcTransactions.fundingScriptPubkey network)
  let _ ← ask (.updateContract (.accepted accepted))
  return (accepted.contractId, offered.counterParty, message)

/-- `on_offer_message` -/
def onOfferMessage (offeredMessage : OfferDlc) (counterParty : PublicKey) :
    ManagerM Unit := do
  let _ ← ask (.validateOffer offeredMessage 0 fiftyYears)
  let contract ← ask (.tryFromOfferDlc offeredMessage counterParty)
  let _ ← ask (.validateOfferedContract contract)
  match ← ask (.getContract contract.id) with
  | some _ =>
      throw (.invalidParameters "Contract with identical id already exists")
  | none => ask (.createContract contract)

/-- `accept_fail_on_error` -/
def acceptFailOnError {α : Type} (manager : Manager) (offered : OfferedContract)
    (acceptMessage : AcceptDlc) (error : DlcError) : ManagerM α := do
  let _ ← ask (.updateContract
    (.failedAccept ⟨offered, acceptMessage, manager.display error⟩))
  throw error

/-- `sign_fail_on_error` -/
def signFailOnError {α : Type} (manager : Manager) (accepted : AcceptedContract)
    (signMessage : SignDlc) (error : DlcError) : ManagerM α := do
  let _ ← ask (.updateContract
    (.failedSign ⟨accepted, signMessage, manager.display error⟩))
  throw error

/-- `on_accept_message` -/
def onAcceptMessage (manager : Manager) (acceptMessage : AcceptDlc)
    (counterParty : PublicKey) : ManagerM DlcMessage := do
  let offered ← getContractInState manager acceptMessage.temporaryContractId
    DlcContract.offered? "Offered" (some counterParty)
  match ← ExceptT.lift (ask (.verifyAcceptedAndSignContract offered acceptMessage)).run with
  | .ok (signed, signedMessage) =>
      let network ← ask .getNetwork
      let _ ← ask (.importAddress
        signed.acceptedContract.dlcTransactions.fundingScriptPubkey network)
      let _ ← ask (.updateContract (.signed signed))
      return .sign signedMessage
  | .error error => acceptFailOnError manager offered acceptMessage error

/-- `on_sign_message` -/
def onSignMessage (manager : Manager) (signMessage : SignDlc) (peer : PublicKey) :
    ManagerM Unit := do
  let accepted ← getContractInState manager signMessage.contractId
    (fun | .accepted contract => some contract | _ => none) "Accepted" (some peer)
  match ← ExceptT.lift (ask (.verifySignedContract accepted signMessage)).run with
  | .ok (signed, fundTx) =>
      let _ ← ask (.updateContract (.signed signed))
      ask (.sendTransaction fundTx)
  | .error error => signFailOnError manager accepted signMessage error

/-- `on_dlc_message` -/
def onDlcMessage (manager : Manager) (message : DlcMessage) (counterParty : PublicKey) :
    ManagerM (Option DlcMessage) :=
  match message with
  | .offer offer => do
      let _ ← onOfferMessage offer counterParty
      return none
  | .accept accept => do
      let reply ← onAcceptMessage manager accept counterParty
      return some reply
  | .sign sign => do
      let _ ← onSignMessage manager sign counterParty
      return none
  | .other => throw (.invalidState "Invalid message type.")

/-- `ContractId::read`: the first 32 bytes of a text. -/
def readContractId (text : String) : Option ContractId :=
  if long : 32 ≤ text.toUTF8.data.size then
    some ⟨text.toUTF8.data.extract 0 32, by rw [Array.size_extract]; omega⟩
  else none

/-- `reject_offer` of the browser wallet, without the printing of errors. -/
def rejectOffer (contractId : String) : ManagerM Unit :=
  match readContractId contractId with
  | none => throw (.ioError "short read")
  | some id => do
      match ← ask (.getContract id) with
      | some (.offered contract) => ask (.updateContract (.rejected contract))
      | _ => return ()

/-- The operations on the contracts of a manager. -/
inductive Operation where
  | sendOffer (contractInput : ContractInput) (counterParty : PublicKey)
      (refundDelay : Nat) (protocolFeeBasisPoints : UInt64) (feeAddress : String)
  | onDlcMessage (message : DlcMessage) (counterParty : PublicKey)
  | acceptContractOffer (contractId : ContractId)
  | periodicCheck
  | rejectOffer (contractId : String)

/-- What an operation returns. -/
inductive Outcome where
  | offer (message : OfferDlc)
  | reply (message : Option DlcMessage)
  | accepted (contractId : ContractId) (counterParty : PublicKey) (message : AcceptDlc)
  | affected (contracts : List Report)
  | rejected

/-- The program of an operation. -/
def Operation.run (manager : Manager) : Operation → ManagerM Outcome
  | sendOffer contractInput counterParty refundDelay protocolFeeBasisPoints feeAddress =>
      .offer <$> LinkManager.sendOffer manager contractInput counterParty refundDelay
        protocolFeeBasisPoints feeAddress
  | onDlcMessage message counterParty =>
      .reply <$> LinkManager.onDlcMessage manager message counterParty
  | acceptContractOffer contractId =>
      (fun (id, peer, message) => .accepted id peer message) <$>
        LinkManager.acceptContractOffer manager contractId
  | periodicCheck => .affected <$> LinkManager.periodicCheck manager
  | rejectOffer contractId => (fun _ => .rejected) <$> LinkManager.rejectOffer contractId

end LinkManager

end DlcStack
