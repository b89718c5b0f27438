import DlcStack.DlcContract

/-!
# The UTXOs of the browser wallet

`JSInterfaceWallet` keeps the list of UTXOs that it was last given, and selects
from it when a contract is to be funded.  The selection itself is made by BDK.
-/

namespace DlcStack

structure OutPoint where
  txid : Txid
  vout : Nat
  deriving DecidableEq, Repr

structure TxOut where
  value : Nat
  scriptPubkey : String
  deriving DecidableEq, Repr

structure Utxo where
  outpoint : OutPoint
  txOut : TxOut
  address : String
  redeemScript : String
  reserved : Bool
  deriving DecidableEq, Repr

/-- A UTXO as BDK selects it. -/
structure WeightedUtxo where
  outpoint : OutPoint
  txout : TxOut
  satisfactionWeight : Nat
  deriving DecidableEq, Repr

/-- `BranchAndBoundCoinSelection::coin_select`: the candidates, the fee rate and the
amount. -/
abbrev CoinSelect :=
  List WeightedUtxo → Nat → Nat → Except String (List WeightedUtxo)

/-- Only candidates are selected. -/
def CoinSelect.FromCandidates (coinSelect : CoinSelect) : Prop :=
  ∀ candidates feeRate amount selected,
    coinSelect candidates feeRate amount = .ok selected → selected ⊆ candidates

structure JsInterfaceWallet where
  address : String
  utxos : List Utxo

namespace JsInterfaceWallet

/-- `new` -/
def new (address : String) : JsInterfaceWallet :=
  ⟨address, []⟩

/-- `set_utxos` -/
def setUtxos (wallet : JsInterfaceWallet) (utxos : List Utxo) : JsInterfaceWallet :=
  { wallet with utxos := utxos }

/-- The UTXOs that are offered to the coin selection. -/
def candidates (wallet : JsInterfaceWallet) : List WeightedUtxo :=
  (wallet.utxos.filter fun utxo => !utxo.reserved).map fun utxo =>
    ⟨utxo.outpoint, utxo.txOut, 107⟩

/-- `get_utxos_for_amount` -/
def getUtxosForAmount (coinSelect : CoinSelect) (wallet : JsInterfaceWallet)
    (amount : Nat) (feeRate : Option Nat) (_lockUtxos : Bool) :
    Except DlcError (List Utxo) :=
  match coinSelect wallet.candidates (feeRate.getD 0) amount with
  | .ok selected =>
      .ok (selected.map fun utxo =>
        ⟨utxo.outpoint, utxo.txout, wallet.address, "", false⟩)
  | .error error => .error (.walletError error)

/-- What is selected was offered to the coin selection. -/
theorem candidate_of_getUtxosForAmount {coinSelect : CoinSelect}
    {wallet : JsInterfaceWallet} {amount : Nat} {feeRate : Option Nat} {lockUtxos : Bool}
    {selected : List Utxo} (fromCandidates : coinSelect.FromCandidates)
    (answered : wallet.getUtxosForAmount coinSelect amount feeRate lockUtxos =
      .ok selected) :
    ∀ utxo ∈ selected, ∃ candidate ∈ wallet.candidates,
      candidate.outpoint = utxo.outpoint := by
  intro utxo member
  simp only [getUtxosForAmount] at answered
  cases chosen : coinSelect wallet.candidates (feeRate.getD 0) amount with
  | error error =>
      rw [chosen] at answered
      cases answered
  | ok weighted =>
      rw [chosen] at answered
      obtain rfl := Except.ok.inj answered
      obtain ⟨candidate, candidateMem, rfl⟩ := List.mem_map.mp member
      exact ⟨candidate, fromCandidates _ _ _ _ chosen candidateMem, rfl⟩

end JsInterfaceWallet

end DlcStack
