import DlcStack.ManagerPeriodicCheck

/-!
# The periodic check of the router wallet

`periodic_check` of the wallet: it lets the manager check all contracts, reads
the record of each contract that the manager reports, and posts to the
blockchain interface the contracts that it finds confirmed or pre-closed.
-/

namespace DlcStack

namespace Wallet

open Program LinkManager

/-- The wallet: its manager, the blockchain interface, and how a text is written
in JSON. -/
structure RouterWallet where
  manager : Manager
  blockchainInterfaceUrl : String
  toJson : String → String

/-- An operation of the wallet, with the texts of its errors. -/
abbrev WalletM := ExceptT String (Program WalletRequest WalletRequest.Answer)

def RouterWallet.fundedUrl (wallet : RouterWallet) : String :=
  wallet.blockchainInterfaceUrl ++ "/set-status-funded"

def RouterWallet.closedUrl (wallet : RouterWallet) : String :=
  wallet.blockchainInterfaceUrl ++ "/post-close-dlc"

/-- `get_chain_from_attestors` -/
def getChainFromAttestors (wallet : RouterWallet) (attestors : List PublicKey)
    (uuid : String) : WalletM String := do
  let chains ← ExceptT.lift (attestors.mapM fun attestor => do
    let answer ← (LinkManager.ask (.getChain attestor uuid)).run
    return answer.toOption)
  match chains with
  | [] => throw "Chains from attestors are not all the same."
  | first :: rest =>
      if rest.all (· = first) then
        match first with
        | some chain => return wallet.toJson chain
        | none => throw "Failed to get chain from attestors"
      else
        throw "Chains from attestors are not all the same."

/-- The two loops of `periodic_check` that post contracts. -/
def postEach (wallet : RouterWallet) (attestors : List PublicKey) (url : String) :
    List (String × Txid) → WalletM Unit
  | [] => return ()
  | (uuid, txid) :: rest => do
      let chain ← getChainFromAttestors wallet attestors uuid
      let _ ← ExceptT.adapt wallet.manager.display
        (LinkManager.ask (.post url ⟨uuid, txid, chain⟩))
      postEach wallet attestors url rest

/-- The loop of `periodic_check` that reads the reported contracts: those to post
as funded and as closed. -/
def readReported : List Report →
    Program WalletRequest WalletRequest.Answer
      (List (String × Txid) × List (String × Txid))
  | [] => return ([], [])
  | (id, uuid) :: rest => do
      let answer ← (LinkManager.ask (.getContract id)).run
      let (confirmed, closed) ← readReported rest
      match answer with
      | .ok (some (.confirmed contract)) =>
          return ((uuid, contract.acceptedContract.dlcTransactions.fund.txid) :: confirmed,
            closed)
      | .ok (some (.preClosed contract)) =>
          return (confirmed, (uuid, contract.signedCet.txid) :: closed)
      | _ => return (confirmed, closed)

/-- `periodic_check` -/
def periodicCheck (wallet : RouterWallet) : WalletM String :=
  match wallet.manager.oracles with
  | none => throw "No attestors from manager"
  | some attestors => do
      let updated ← ExceptT.lift (do
        match ← (LinkManager.periodicCheck wallet.manager).run with
        | .ok updated => return updated
        | .error _ => return [])
      let (confirmed, closed) ← ExceptT.lift (readReported updated)
      let _ ← postEach wallet attestors wallet.fundedUrl confirmed
      let _ ← postEach wallet attestors wallet.closedUrl closed
      return "Success running periodic check"

end Wallet

end DlcStack
