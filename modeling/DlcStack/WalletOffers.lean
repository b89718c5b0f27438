import DlcStack.ManagerMessages
import DlcStack.WalletPayoutCurve
import DlcStack.WalletPeriodicCheck

/-!
# The endpoints of the router wallet

The requests that the router wallet serves: a new offer, the answer of the
other party to it, the periodic check and the chain of an event.  A new offer
has one contract info, for which every attestor of the wallet must attest; its
terms are bounded here before the manager sends it.
-/

namespace DlcStack

namespace RouterWallet

/-- `bitcoin::Network` -/
inductive Network where
  | bitcoin
  | testnet
  | signet
  | regtest
  deriving DecidableEq, Repr

/-- `to_string` -/
def Network.toString : Network → String
  | bitcoin => "bitcoin"
  | testnet => "testnet"
  | signet => "signet"
  | regtest => "regtest"

/-- `Network::from_str` -/
def Network.fromStr (text : String) : Except String Network :=
  if text = "bitcoin" then .ok bitcoin
  else if text = "testnet" then .ok testnet
  else if text = "signet" then .ok signet
  else if text = "regtest" then .ok regtest
  else .error ("invalid network kind " ++ text)

/-- The network that the wallet was started with is read back from its text. -/
theorem Network.fromStr_toString (network : Network) :
    fromStr network.toString = .ok network := by
  cases network <;> decide

/-- `DigitDecompositionEventDescriptor` -/
structure EventDescriptor where
  base : Nat
  isSigned : Bool
  unit : String
  precision : Int
  nbDigits : Nat
  deriving DecidableEq, Repr

/-- `RoundingInterval` -/
structure RoundingInterval where
  beginInterval : UInt64
  roundingMod : UInt64
  deriving DecidableEq, Repr

/-- `NumericalDescriptor`, without parameters for differences. -/
structure NumericalDescriptor (Function : Type) where
  payoutFunction : Function
  roundingIntervals : List RoundingInterval
  oracleNumericInfos : OracleNumericInfo

/-- What the other crates make of the terms of an offer: the payout function of pieces,
and addresses of texts.  The build may check for overflows. -/
structure OfferLibrary extends CurveLibrary where
  Function : Type
  newFunction : List Piece → Except DlcError Function
  overflowChecks : Bool
  addressFromStr : String → Except String String
  display : DlcError → String

/-- `get_numerical_contract_descriptor` -/
def getNumericalContractDescriptor (library : OfferLibrary)
    (acceptCollateral offerCollateral totalOutcomes : UInt64) (nbAttestors : Nat) :
    Option (Except DlcError (NumericalDescriptor library.Function)) := do
  let made ← getPolynomialPayoutCurvePieces library.toCurveLibrary library.overflowChecks
    acceptCollateral offerCollateral totalOutcomes
  return do
    let pieces ← made
    let payoutFunction ← library.newFunction pieces
    return ⟨payoutFunction, [⟨0, 1⟩], oracleNumericInfos nbAttestors⟩

/-- `get_numerical_contract_info` -/
def getNumericalContractInfo (library : OfferLibrary)
    (acceptCollateral offerCollateral totalOutcomes : UInt64) (nbAttestors : Nat) :
    Option (Except DlcError (EventDescriptor × NumericalDescriptor library.Function)) := do
  let made ← getNumericalContractDescriptor library acceptCollateral offerCollateral
    totalOutcomes nbAttestors
  return do
    let descriptor ← made
    return (⟨base, false, "btc/usd", 1, nbDigits⟩, descriptor)

end RouterWallet

open RouterWallet (Network OfferLibrary NumericalDescriptor getNumericalContractInfo)

namespace Wallet

open Program LinkManager

/-- `STATIC_COUNTERPARTY_NODE_ID` -/
def staticCounterpartyNodeId : PublicKey :=
  "02fc8e97419286cf05e5d133f41ff6d51f691dda039e9dc007245a421e2c7ec61c"

/-- `OfferRequest` -/
structure OfferRequest where
  uuid : String
  acceptCollateral : UInt64
  offerCollateral : UInt64
  totalOutcomes : UInt64
  refundDelay : UInt32
  btcFeeRecipient : String
  btcFeeBasisPoints : UInt64
  deriving DecidableEq, Repr

/-- `ContractInput` of the crate, with its one contract info. -/
structure OfferInput (Function : Type) where
  offerCollateral : UInt64
  acceptCollateral : UInt64
  feeRate : UInt64
  oracles : OracleInput
  contractDescriptor : NumericalDescriptor Function

/-- What the manager reads of it. -/
def OfferInput.contractInput {Function : Type} (input : OfferInput Function) :
    ContractInput :=
  ⟨[⟨input.oracles⟩]⟩

/-- `ONE_DAY_IN_SECONDS` -/
def oneDayInSeconds : UInt32 := 86400

/-- `TEN_DAYS` -/
def tenDays : UInt32 := oneDayInSeconds * 10

/-- `adjusted_refund_delay` -/
def adjustedRefundDelay (refundDelay : UInt32) : UInt32 :=
  if refundDelay = 0 then tenDays
  else if tenDays ≤ refundDelay then tenDays
  else refundDelay

/-- `fee_rate` -/
def feeRate : Network → UInt64
  | .regtest => 1
  | _ => 400

/-- `fee_address_string` -/
def feeAddressString (btcFeeBasisPoints : UInt64) (btcFeeRecipient : String) : String :=
  if 0 < btcFeeBasisPoints then btcFeeRecipient
  else "bcrt1qvgkz8m4m73kly4xhm28pcnv46n6u045lfq9ta3"

/-- A `WalletError`, as it is printed. -/
def walletError (text : String) : String :=
  "Wallet Error: " ++ text

/-- The input that `create_new_offer` hands to the manager; nothing where the build
panics. -/
def offerInput (library : OfferLibrary) (activeNetwork : String)
    (attestors : List PublicKey) (request : OfferRequest) :
    Option (Except String (OfferInput library.Function)) :=
  match Network.fromStr activeNetwork with
  | .error error => some (.error (walletError ("Unknown Network in offer creation: " ++ error)))
  | .ok network => do
      let made ← getNumericalContractInfo library request.acceptCollateral
        request.offerCollateral request.totalOutcomes attestors.length
      return do
        let (_, descriptor) ← made.mapError fun error => walletError (library.display error)
        return {
          offerCollateral := request.offerCollateral
          acceptCollateral := request.acceptCollateral
          feeRate := feeRate network
          -- `attestors.len() as u16`
          oracles := ⟨attestors, request.uuid, attestors.length % UInt16.size⟩
          contractDescriptor := descriptor }

/-- `create_new_offer`; nothing where it panics. -/
def createNewOffer (library : OfferLibrary) (wallet : RouterWallet) (activeNetwork : String)
    (attestors : List PublicKey) (request : OfferRequest) : Option (WalletM OfferDlc) := do
  let made ← offerInput library activeNetwork attestors request
  return do
    let input ← ExceptT.mk (ret made)
    let feeAddress ← ExceptT.mk (ret
      ((library.addressFromStr (feeAddressString request.btcFeeBasisPoints
        request.btcFeeRecipient)).mapError fun error =>
          walletError ("Error parsing fee address: " ++ error)))
    ExceptT.adapt (fun error => walletError (wallet.manager.display error))
      (sendOffer wallet.manager input.contractInput staticCounterpartyNodeId
        (adjustedRefundDelay request.refundDelay).toNat request.btcFeeBasisPoints feeAddress)

/-- `accept_offer` -/
def acceptOffer (wallet : RouterWallet) (acceptDlc : AcceptDlc) : WalletM SignDlc := do
  let dlc ← ExceptT.adapt wallet.manager.display
    (onDlcMessage wallet.manager (.accept acceptDlc) staticCounterpartyNodeId)
  match dlc with
  | some (.sign sign) => return sign
  | _ => throw "Error: invalid Sign message for accept_offer function"

/-- The requests that concern the contracts. -/
inductive Call where
  | offer (body : Except String OfferRequest)
  | acceptOffer (body : Except String AcceptDlc)
  | periodicCheck
  | getChain (eventId : String)

/-- What a request that succeeds is answered with. -/
inductive Outcome where
  | offered (message : OfferDlc)
  | signed (message : SignDlc)
  | checked
  | chain (chain : String)

/-- `process_request`, for the requests that concern the contracts; nothing where it
panics. -/
def Call.run (library : OfferLibrary) (wallet : RouterWallet) (activeNetwork : String) :
    Call → Option (WalletM Outcome)
  | offer body =>
      match wallet.manager.oracles with
      | none => some (throw (walletError "No attestors from Manager"))
      | some attestors =>
          match body with
          | .error error => some (throw (walletError error))
          | .ok request =>
              (createNewOffer library wallet activeNetwork attestors request).map
                (Outcome.offered <$> ·)
  | acceptOffer body =>
      match body with
      | .error error => some (throw error)
      | .ok acceptDlc => some (Outcome.signed <$> Wallet.acceptOffer wallet acceptDlc)
  | periodicCheck => some ((fun _ => Outcome.checked) <$> Wallet.periodicCheck wallet)
  | getChain eventId =>
      match wallet.manager.oracles with
      | none => some (throw (walletError "No attestors from Manager"))
      | some attestors =>
          some (Outcome.chain <$> getChainFromAttestors wallet attestors eventId)

end Wallet

end DlcStack
