import DlcStack.EsploraChainCache
import DlcStack.ManagerMessages

/-!
# The browser wallet

The calls that `JsDLCInterface` makes of the manager, with the texts of their
errors.  What is read from JSON comes as a message, or as the error of reading it.
-/

namespace DlcStack

namespace JsDlcInterface

open Program LinkManager

/-- `STATIC_COUNTERPARTY_NODE_ID` -/
def staticCounterpartyNodeId : PublicKey :=
  "02fc8e97419286cf05e5d133f41ff6d51f691dda039e9dc007245a421e2c7ec61c"

abbrev JsM := ExceptT String (Program WalletRequest WalletRequest.Answer)

/-- A `WalletError`, as it is printed. -/
def walletError (text : String) : String :=
  "Wallet Error: " ++ text

/-- `.map_err(to_wallet_error)` -/
def toWalletError {α : Type} (manager : Manager) (operation : ManagerM α) : JsM α :=
  ExceptT.adapt (fun error => walletError (manager.display error)) operation

/-- What was read from JSON. -/
def parsed {α : Type} (json : Except String α) : JsM α :=
  match json with
  | .ok value => return value
  | .error error => throw (walletError error)

/-- `accept_offer` -/
def acceptOffer (manager : Manager) (offerJson : Except String OfferDlc) : JsM AcceptDlc :=
  ExceptT.adapt ("Error accepting offer: " ++ ·) do
    let offer ← parsed offerJson
    let _ ← toWalletError manager
      (onDlcMessage manager (.offer offer) staticCounterpartyNodeId)
    let (_, _, acceptMsg) ← toWalletError manager
      (acceptContractOffer manager offer.temporaryContractId)
    return acceptMsg

/-- `countersign_and_broadcast` -/
def countersignAndBroadcast (manager : Manager) (signJson : Except String SignDlc) :
    JsM Txid :=
  ExceptT.adapt ("Error signing and broadcasting: " ++ ·) do
    let sign ← parsed signJson
    let _ ← toWalletError manager
      (onDlcMessage manager (.sign sign) staticCounterpartyNodeId)
    let contracts ← toWalletError manager (ask .getSignedContracts)
    match contracts.find? fun contract =>
        contract.acceptedContract.contractId = sign.contractId with
    | some contract => return contract.acceptedContract.dlcTransactions.fund.txid
    | none =>
        throw (walletError "DLC Manager: - Sign Offer Error: Contract not found")

/-- `reject_offer` -/
def rejectOffer (manager : Manager) (contractId : String) : JsM Unit :=
  ExceptT.adapt ("Error signing and broadcasting: " ++ ·)
    (toWalletError manager (LinkManager.rejectOffer contractId))

/-- `periodic_check` -/
def periodicCheck (manager : Manager) : JsM Unit := do
  let _ ← ExceptT.adapt manager.display (LinkManager.periodicCheck manager)
  return ()

/-- The calls that concern the contracts. -/
inductive Call where
  | acceptOffer (offerJson : Except String OfferDlc)
  | countersignAndBroadcast (signJson : Except String SignDlc)
  | rejectOffer (contractId : String)
  | periodicCheck

/-- What a call returns. -/
inductive Outcome where
  | accepted (message : AcceptDlc)
  | broadcast (txid : Txid)
  | done

/-- The program of a call. -/
def Call.run (manager : Manager) : Call → JsM Outcome
  | acceptOffer offerJson => .accepted <$> JsDlcInterface.acceptOffer manager offerJson
  | countersignAndBroadcast signJson =>
      .broadcast <$> JsDlcInterface.countersignAndBroadcast manager signJson
  | rejectOffer contractId =>
      (fun _ => .done) <$> JsDlcInterface.rejectOffer manager contractId
  | periodicCheck => (fun _ => .done) <$> JsDlcInterface.periodicCheck manager

end JsDlcInterface

end DlcStack
