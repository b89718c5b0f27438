import DlcStack.UniqueTable

/-!
# Contracts

The contract values of the `dlc_manager` crate, with the fields that the code
of this repository reads, their identifiers, and the texts under which a
contract is stored.  The identifier of an accepted contract, which the crate
computes from the fund transaction, is kept as a field.
-/

namespace DlcStack

/-- `[u8; 32]` -/
abbrev ContractId := Vector UInt8 32

abbrev Txid := String

abbrev PublicKey := String

/-- `dlc_manager::error::Error` -/
inductive DlcError where
  | ioError (text : String)
  | invalidParameters (text : String)
  | invalidState (text : String)
  | walletError (text : String)
  | blockchainError (text : String)
  | storageError (text : String)
  | oracleError (text : String)
  deriving DecidableEq, Repr

/-- A transaction, by its identifier and lock time. -/
structure Transaction where
  txid : Txid
  lockTime : Nat
  deriving DecidableEq, Repr

structure OracleAnnouncement where
  oraclePublicKey : PublicKey
  eventId : String
  deriving DecidableEq, Repr

structure OracleAttestation where
  oraclePublicKey : PublicKey
  signatures : List String
  outcomes : List String
  deriving DecidableEq, Repr

structure ContractInfo where
  oracleAnnouncements : List OracleAnnouncement
  threshold : Nat
  deriving DecidableEq, Repr

/-- The adaptor information of one contract info, without its signatures. -/
inductive AdaptorInfo where
  | enum
  | numerical
  | numericalWithDifference
  deriving DecidableEq, Repr

structure OfferedContract where
  id : ContractId
  contractInfo : List ContractInfo
  counterParty : PublicKey
  deriving DecidableEq, Repr

structure DlcTransactions where
  fund : Transaction
  refund : Transaction
  fundingScriptPubkey : String
  deriving DecidableEq, Repr

structure AcceptedContract where
  offeredContract : OfferedContract
  adaptorInfos : List AdaptorInfo
  dlcTransactions : DlcTransactions
  /-- `get_contract_id()` -/
  contractId : ContractId
  deriving DecidableEq, Repr

structure SignedContract where
  acceptedContract : AcceptedContract
  channelId : Option ContractId
  deriving DecidableEq, Repr

structure PreClosedContract where
  signedContract : SignedContract
  attestations : Option (List OracleAttestation)
  signedCet : Transaction
  deriving DecidableEq, Repr

structure ClosedContract where
  attestations : Option (List OracleAttestation)
  signedCet : Option Transaction
  contractId : ContractId
  temporaryContractId : ContractId
  counterPartyId : PublicKey
  pnl : Int
  deriving DecidableEq, Repr

structure AcceptDlc where
  temporaryContractId : ContractId
  deriving DecidableEq, Repr

structure SignDlc where
  contractId : ContractId
  deriving DecidableEq, Repr

structure FailedAcceptContract where
  offeredContract : OfferedContract
  acceptMessage : AcceptDlc
  errorMessage : String
  deriving DecidableEq, Repr

structure FailedSignContract where
  acceptedContract : AcceptedContract
  signMessage : SignDlc
  errorMessage : String
  deriving DecidableEq, Repr

inductive DlcContract where
  | offered (contract : OfferedContract)
  | accepted (contract : AcceptedContract)
  | signed (contract : SignedContract)
  | confirmed (contract : SignedContract)
  | preClosed (contract : PreClosedContract)
  | closed (contract : ClosedContract)
  | failedAccept (contract : FailedAcceptContract)
  | failedSign (contract : FailedSignContract)
  | refunded (contract : SignedContract)
  | rejected (contract : OfferedContract)
  deriving DecidableEq, Repr

namespace DlcContract

/-- `get_id` -/
def getId : DlcContract → ContractId
  | offered contract => contract.id
  | rejected contract => contract.id
  | accepted contract => contract.contractId
  | signed contract => contract.acceptedContract.contractId
  | confirmed contract => contract.acceptedContract.contractId
  | refunded contract => contract.acceptedContract.contractId
  | failedAccept contract => contract.offeredContract.id
  | failedSign contract => contract.acceptedContract.contractId
  | preClosed contract => contract.signedContract.acceptedContract.contractId
  | closed contract => contract.contractId

/-- `get_temporary_id` -/
def getTemporaryId : DlcContract → ContractId
  | offered contract => contract.id
  | rejected contract => contract.id
  | accepted contract => contract.offeredContract.id
  | signed contract => contract.acceptedContract.offeredContract.id
  | confirmed contract => contract.acceptedContract.offeredContract.id
  | refunded contract => contract.acceptedContract.offeredContract.id
  | failedAccept contract => contract.offeredContract.id
  | failedSign contract => contract.acceptedContract.offeredContract.id
  | preClosed contract =>
      contract.signedContract.acceptedContract.offeredContract.id
  | closed contract => contract.temporaryContractId

/-- `get_counter_party_id` -/
def getCounterPartyId : DlcContract → PublicKey
  | offered contract => contract.counterParty
  | rejected contract => contract.counterParty
  | accepted contract => contract.offeredContract.counterParty
  | signed contract => contract.acceptedContract.offeredContract.counterParty
  | confirmed contract => contract.acceptedContract.offeredContract.counterParty
  | refunded contract => contract.acceptedContract.offeredContract.counterParty
  | failedAccept contract => contract.offeredContract.counterParty
  | failedSign contract => contract.acceptedContract.offeredContract.counterParty
  | preClosed contract =>
      contract.signedContract.acceptedContract.offeredContract.counterParty
  | closed contract => contract.counterPartyId

/-- `get_contract_state_str` -/
def getContractStateStr : DlcContract → String
  | offered _ => "offered"
  | accepted _ => "accepted"
  | signed _ => "signed"
  | confirmed _ => "confirmed"
  | preClosed _ => "pre_closed"
  | closed _ => "closed"
  | refunded _ => "refunded"
  | failedAccept _ => "failed_accept"
  | failedSign _ => "failed_sign"
  | rejected _ => "rejected"

def offered? : DlcContract → Option OfferedContract
  | offered contract => some contract
  | _ => none

theorem eq_offered_of_offered? {contract : DlcContract} {offer : OfferedContract}
    (found : contract.offered? = some offer) : contract = .offered offer := by
  cases contract <;> cases found
  rfl

def signed? : DlcContract → Option SignedContract
  | signed contract => some contract
  | _ => none

def confirmed? : DlcContract → Option SignedContract
  | confirmed contract => some contract
  | _ => none

def preClosed? : DlcContract → Option PreClosedContract
  | preClosed contract => some contract
  | _ => none

def refunded? : DlcContract → Option SignedContract
  | refunded contract => some contract
  | _ => none

/-- A contract that moved from its temporary to its final identifier when it
came into this state. -/
def isMoved : DlcContract → Bool
  | accepted _ => true
  | signed _ => true
  | _ => false

end DlcContract

/-- `{:x}` of a number below 16. -/
def hexDigit (digit : Nat) : Char :=
  if digit < 10 then Char.ofNat (48 + digit) else Char.ofNat (87 + digit)

/-- `{:02x}` -/
def hexByte (byte : UInt8) : List Char :=
  [hexDigit (byte.toNat / 16), hexDigit (byte.toNat % 16)]

def getContractIdString (contractId : ContractId) : String :=
  String.ofList ('0' :: 'x' :: contractId.toList.flatMap hexByte)

private theorem hexDigit_inj {first second : Nat} (firstLt : first < 16)
    (secondLt : second < 16) (same : hexDigit first = hexDigit second) :
    first = second := by
  have all : ∀ first : Fin 16, ∀ second : Fin 16,
      hexDigit first = hexDigit second → first = second := by decide
  exact congrArg Fin.val (all ⟨first, firstLt⟩ ⟨second, secondLt⟩ same)

private theorem hexByte_inj {first second : UInt8}
    (same : hexByte first = hexByte second) : first = second := by
  simp only [hexByte, List.cons.injEq, and_true] at same
  have high := hexDigit_inj (by have := first.toNat_lt; omega)
    (by have := second.toNat_lt; omega) same.1
  have low := hexDigit_inj (Nat.mod_lt _ (by omega)) (Nat.mod_lt _ (by omega)) same.2
  exact UInt8.toNat_inj.mp (by omega)

private theorem flatMap_hexByte_inj {first second : List UInt8}
    (same : first.flatMap hexByte = second.flatMap hexByte) : first = second := by
  induction first generalizing second with
  | nil =>
      cases second with
      | nil => rfl
      | cons byte bytes => simp [hexByte] at same
  | cons byte bytes ih =>
      cases second with
      | nil => simp [hexByte] at same
      | cons other others =>
          rw [List.flatMap_cons, List.flatMap_cons] at same
          obtain ⟨head, tail⟩ := List.append_inj same rfl
          rw [hexByte_inj head, ih tail]

/-- Different contracts are stored under different texts. -/
theorem getContractIdString_injective :
    Function.Injective getContractIdString := by
  intro first second same
  have lists := String.ofList_injective same
  simp only [List.cons.injEq, true_and] at lists
  exact Vector.toList_inj.mp (flatMap_hexByte_inj lists)

end DlcStack
