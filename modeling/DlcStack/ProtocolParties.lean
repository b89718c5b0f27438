import DlcStack.EffectParties
import DlcStack.EffectSessions
import DlcStack.JsContractViews
import DlcStack.JsInterfaceFailures
import DlcStack.WalletOffers

/-!
# The parties of the protocol

The router wallet offers contracts, and browser wallets accept and countersign
them.  Each keeps its own store.  The messages between them are carried by
others, who may lose, repeat, reorder and alter them or make up their own, and who
may be a party to contracts themselves: a call may be made with any message.  What
others cannot do is stated here of the answers of the crate and of the blockchain.
Where a contract is between the router wallet and a browser wallet, its sign message
is verified only after the router wallet returned one, and its funding transaction
is found on the blockchain only after a wallet handed it over.
-/

namespace DlcStack

namespace Protocol

open Program LinkManager

inductive Party (β : Type) where
  | router
  | browser (wallet : β)
  deriving DecidableEq, Repr

/-- The wallets: what the router wallet runs on, and the manager of each browser
wallet. -/
structure Deployment (β : Type) where
  library : RouterWallet.OfferLibrary
  wallet : Wallet.RouterWallet
  activeNetwork : String
  managers : β → Manager

/-- A call of one of the wallets. -/
inductive Call (β : Type) where
  | router (call : Wallet.Call)
  | browser (wallet : β) (call : JsDlcInterface.Call)

/-- What a call came to. -/
inductive Returned where
  | panicked
  | router (result : Except String Wallet.Outcome)
  | browser (result : Except String JsDlcInterface.Outcome)

def Call.party {β : Type} : Call β → Party β
  | router _ => .router
  | browser wallet _ => .browser wallet

/-- The program of a call, for the wallet that it is made of. -/
def Call.run {β : Type} (deployment : Deployment β) :
    Call β → Program WalletRequest WalletRequest.Answer Returned
  | router call =>
      match call.run deployment.library deployment.wallet deployment.activeNetwork with
      | some program => Returned.router <$> program.run
      | none => return .panicked
  | browser wallet call => Returned.browser <$> (call.run (deployment.managers wallet)).run

abbrev PartiesStep (β : Type) :=
  PartyStep (Party β) ContractStore WalletRequest WalletRequest.Answer

/-- Calls of the wallets at the same time. -/
abbrev Calls (ι β : Type) :=
  Pool ι (Party β → ContractStore) (Party β × WalletRequest)
    (fun request => request.2.Answer) Returned

/-- The calls before any of them has taken a step. -/
def Calls.start {ι β : Type} (deployment : Deployment β) (calls : ι → Call β) : Calls ι β :=
  fun index => Thread.start (((calls index).run deployment).ofParty (calls index).party)

/-! ## What others cannot do -/

/-- The transactions of contracts. -/
structure Funding where
  /-- The transactions from which the identifier of a contract is computed.  One that is
  drawn for an offer is not computed from any. -/
  transactions : ContractId → Option DlcTransactions
  /-- The transaction pays to the router wallet and a browser wallet together. -/
  Ours : Txid → Prop

namespace Funding

variable (funding : Funding)

/-- The identifier of the contract is computed from its transactions. -/
def Numbers (accepted : AcceptedContract) : Prop :=
  funding.transactions accepted.contractId = some accepted.dlcTransactions

/-- What the crate promises of the identifiers and the transactions that it makes.  No
settlement of a contract funds another one. -/
def Promised (step : WalletStep) : Prop :=
  match step with
  | ⟨_, .offerContract .., .ok (offered, _), _⟩ => funding.transactions offered.id = none
  | ⟨_, .verifyAcceptedAndSignContract .., .ok (signed, message), _⟩ =>
      funding.Numbers signed.acceptedContract ∧
        message.contractId = signed.acceptedContract.contractId
  | ⟨_, .verifySignedContract accepted _, .ok (_, transaction), _⟩ =>
      transaction.txid = accepted.dlcTransactions.fund.txid
  | ⟨_, .getSignedCet .., .ok cet, _⟩ => ¬ funding.Ours cet.txid
  | ⟨_, .getSignedRefund _, .ok refund, _⟩ => ¬ funding.Ours refund.txid
  | _ => True

/-- The world of one wallet, with such a crate.  Replies of the storage may be lost, and
updates may have their effect in part. -/
abbrev Surroundings : Environment ContractStore WalletRequest WalletRequest.Answer :=
  Environment.restrict JsDlcInterface.TornWorld funding.Promised

variable {ι β : Type}

/-- The router wallet has returned a sign message for a contract funded so. -/
def SignedFor (pool : Calls ι β) (txid : Txid) : Prop :=
  ∃ index message transactions,
    (pool index).program = ret (.router (.ok (.signed message))) ∧
      funding.transactions message.contractId = some transactions ∧
        transactions.fund.txid = txid

/-- Some wallet has handed over a transaction, with success or not. -/
def HandedOver (pool : Calls ι β) (txid : Txid) : Prop :=
  ∃ step, pool.Taken step ∧ ∃ transaction,
    step.request.2 = .sendTransaction transaction ∧ transaction.txid = txid

/-- Where the router wallet and a browser wallet fund a contract, signatures of the router
wallet are verified after it returned them, and the funding transaction is found on the
blockchain after it was handed over. -/
def Unforged (pool : Calls ι β) (_ : ι) (step : PartiesStep β) : Prop :=
  match step.own with
  | ⟨_, .verifySignedContract accepted _, .ok _, _⟩ =>
      funding.Ours accepted.dlcTransactions.fund.txid →
        funding.SignedFor pool accepted.dlcTransactions.fund.txid
  | ⟨_, .getTransactionConfirmations txid, .ok confirmations, _⟩ =>
      funding.Ours txid → 0 < confirmations → HandedOver pool txid
  | _ => True

end Funding

end Protocol

end DlcStack
