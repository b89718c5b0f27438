import DlcStack.AsyncStorageProvider
import DlcStack.TextCodec

/-!
# The content of a record

`serialize_contract` and `deserialize_contract`: a byte for the state of the
contract, then the contract as the `dlc_manager` crate serializes it.  Signed,
confirmed and refunded contracts are serialized alike, so only the byte tells
them apart.
-/

namespace DlcStack

namespace Clients

/-- `Serializable`; reading may leave bytes at the end. -/
structure Serializable (α : Type) where
  serialize : α → Except String (List UInt8)
  deserialize : List UInt8 → Except String α

/-- What was serialized is read back. -/
def Serializable.RoundTrip {α : Type} (format : Serializable α) : Prop :=
  ∀ value bytes, format.serialize value = .ok bytes → format.deserialize bytes = .ok value

/-- `ContractPrefix` -/
inductive ContractPrefix where
  | offered
  | accepted
  | signed
  | confirmed
  | preClosed
  | closed
  | failedAccept
  | failedSign
  | refunded
  | rejected
  deriving DecidableEq, Repr

namespace ContractPrefix

/-- `u8::from` -/
def toByte : ContractPrefix → UInt8
  | offered => 1
  | accepted => 2
  | signed => 3
  | confirmed => 4
  | preClosed => 5
  | closed => 6
  | failedAccept => 7
  | failedSign => 8
  | refunded => 9
  | rejected => 10

def all : List ContractPrefix :=
  [offered, accepted, signed, confirmed, preClosed, closed, failedAccept, failedSign,
    refunded, rejected]

/-- `try_from` -/
def ofByte (byte : UInt8) : Except DlcError ContractPrefix :=
  match all.find? (·.toByte = byte) with
  | some found => .ok found
  | none => .error (.storageError "Unknown prefix")

@[simp]
theorem ofByte_toByte (value : ContractPrefix) : ofByte value.toByte = .ok value := by
  cases value <;> rfl

theorem toByte_of_ofByte {byte : UInt8} {value : ContractPrefix}
    (known : ofByte byte = .ok value) : value.toByte = byte := by
  unfold ofByte at known
  split at known
  · rename_i found isFound
    obtain rfl := Except.ok.inj known
    have same := List.find?_some isFound
    exact of_decide_eq_true same
  · cases known

/-- A byte of no prefix is refused. -/
theorem ofByte_unknown {byte : UInt8} (unknown : ∀ value : ContractPrefix,
    value.toByte ≠ byte) : ofByte byte = .error (.storageError "Unknown prefix") := by
  have none : all.find? (·.toByte = byte) = none := by
    rw [List.find?_eq_none]
    intro value _
    simp [unknown value]
  rw [ofByte, none]

/-- `get_prefix` -/
def getPrefix : DlcContract → ContractPrefix
  | .offered _ => offered
  | .accepted _ => accepted
  | .signed _ => signed
  | .confirmed _ => confirmed
  | .preClosed _ => preClosed
  | .closed _ => closed
  | .failedAccept _ => failedAccept
  | .failedSign _ => failedSign
  | .refunded _ => refunded
  | .rejected _ => rejected

end ContractPrefix

/-- The formats of the crates that the provider uses, and how they print errors. -/
structure ContractFormats where
  offered : Serializable OfferedContract
  accepted : Serializable AcceptedContract
  signed : Serializable SignedContract
  preClosed : Serializable PreClosedContract
  closed : Serializable ClosedContract
  failedAccept : Serializable FailedAcceptContract
  failedSign : Serializable FailedSignContract
  base64Encode : List UInt8 → String
  base64Decode : String → Except String (List UInt8)
  display : DlcError → String

namespace ContractFormats

structure RoundTrip (formats : ContractFormats) : Prop where
  offered : formats.offered.RoundTrip
  accepted : formats.accepted.RoundTrip
  signed : formats.signed.RoundTrip
  preClosed : formats.preClosed.RoundTrip
  closed : formats.closed.RoundTrip
  failedAccept : formats.failedAccept.RoundTrip
  failedSign : formats.failedSign.RoundTrip
  base64 : ∀ bytes, formats.base64Decode (formats.base64Encode bytes) = .ok bytes

/-- What is relied on of the formats of the contracts. -/
structure PayloadRoundTrip (formats : ContractFormats) : Prop where
  offered : formats.offered.RoundTrip
  accepted : formats.accepted.RoundTrip
  signed : formats.signed.RoundTrip
  preClosed : formats.preClosed.RoundTrip
  closed : formats.closed.RoundTrip
  failedAccept : formats.failedAccept.RoundTrip
  failedSign : formats.failedSign.RoundTrip

theorem RoundTrip.payload {formats : ContractFormats} (roundTrip : formats.RoundTrip) :
    formats.PayloadRoundTrip :=
  ⟨roundTrip.offered, roundTrip.accepted, roundTrip.signed, roundTrip.preClosed,
    roundTrip.closed, roundTrip.failedAccept, roundTrip.failedSign⟩

/-- The first statement of `serialize_contract`. -/
def serialized (formats : ContractFormats) : DlcContract → Except String (List UInt8)
  | .offered c => formats.offered.serialize c
  | .accepted c => formats.accepted.serialize c
  | .signed c | .confirmed c | .refunded c => formats.signed.serialize c
  | .failedAccept c => formats.failedAccept.serialize c
  | .failedSign c => formats.failedSign.serialize c
  | .preClosed c => formats.preClosed.serialize c
  | .closed c => formats.closed.serialize c
  | .rejected c => formats.offered.serialize c

/-- `serialize_contract` -/
def serializeContract (formats : ContractFormats) (contract : DlcContract) :
    Except String (List UInt8) := do
  let serialized ← formats.serialized contract
  return (ContractPrefix.getPrefix contract).toByte :: serialized

/-- `deserialize(&mut cursor).map_err(to_storage_error)?` -/
def read {α : Type} (format : Serializable α) (variant : α → DlcContract)
    (bytes : List UInt8) : Except DlcError DlcContract :=
  match format.deserialize bytes with
  | .ok value => .ok (variant value)
  | .error error => .error (.storageError error)

/-- `deserialize_contract` -/
def deserializeContract (formats : ContractFormats) :
    List UInt8 → Except DlcError DlcContract
  | [] => .error (.ioError "failed to fill whole buffer")
  | byte :: bytes => do
      match ← ContractPrefix.ofByte byte with
      | .offered => read formats.offered .offered bytes
      | .accepted => read formats.accepted .accepted bytes
      | .signed => read formats.signed .signed bytes
      | .confirmed => read formats.signed .confirmed bytes
      | .preClosed => read formats.preClosed .preClosed bytes
      | .closed => read formats.closed .closed bytes
      | .failedAccept => read formats.failedAccept .failedAccept bytes
      | .failedSign => read formats.failedSign .failedSign bytes
      | .refunded => read formats.signed .refunded bytes
      | .rejected => read formats.offered .rejected bytes

theorem read_serialized {α : Type} {format : Serializable α}
    (roundTrip : format.RoundTrip) {value : α} {bytes : List UInt8}
    (variant : α → DlcContract) (written : format.serialize value = .ok bytes) :
    read format variant bytes = .ok (variant value) := by
  rw [read, roundTrip value bytes written]

theorem serializeContract_of_serialized {formats : ContractFormats}
    {contract : DlcContract} {body : List UInt8}
    (payload : formats.serialized contract = .ok body) :
    formats.serializeContract contract =
      .ok ((ContractPrefix.getPrefix contract).toByte :: body) := by
  rw [serializeContract, payload]
  rfl

/-- A payload after the byte of its state is read back. -/
theorem deserializeContract_of_serialized {formats : ContractFormats}
    (roundTrip : formats.PayloadRoundTrip) {contract : DlcContract} {body : List UInt8}
    (payload : formats.serialized contract = .ok body) :
    formats.deserializeContract ((ContractPrefix.getPrefix contract).toByte :: body) =
      .ok contract := by
  cases contract with
  | offered c => exact read_serialized roundTrip.offered .offered payload
  | accepted c => exact read_serialized roundTrip.accepted .accepted payload
  | signed c => exact read_serialized roundTrip.signed .signed payload
  | confirmed c => exact read_serialized roundTrip.signed .confirmed payload
  | preClosed c => exact read_serialized roundTrip.preClosed .preClosed payload
  | closed c => exact read_serialized roundTrip.closed .closed payload
  | failedAccept c => exact read_serialized roundTrip.failedAccept .failedAccept payload
  | failedSign c => exact read_serialized roundTrip.failedSign .failedSign payload
  | refunded c => exact read_serialized roundTrip.signed .refunded payload
  | rejected c => exact read_serialized roundTrip.offered .rejected payload

/-- A serialized contract is read back in its state. -/
theorem deserializeContract_serialized {formats : ContractFormats}
    (roundTrip : formats.PayloadRoundTrip) {contract : DlcContract} {bytes : List UInt8}
    (written : formats.serializeContract contract = .ok bytes) :
    formats.deserializeContract bytes = .ok contract := by
  cases payload : formats.serialized contract with
  | error error =>
      rw [serializeContract, payload] at written
      cases written
  | ok body =>
      rw [serializeContract_of_serialized payload] at written
      obtain rfl := Except.ok.inj written
      exact deserializeContract_of_serialized roundTrip payload

/-- What is read of a payload is in the state of the reader. -/
theorem getPrefix_of_read {α : Type} {format : Serializable α} {variant : α → DlcContract}
    {bytes : List UInt8} {contract : DlcContract}
    (found : read format variant bytes = .ok contract) :
    ∃ value, contract = variant value := by
  unfold read at found
  split at found
  · exact ⟨_, (Except.ok.inj found).symm⟩
  · cases found

/-- A contract that is read is in the state of the first byte. -/
theorem eq_toByte_of_deserializeContract {formats : ContractFormats} {byte : UInt8}
    {rest : List UInt8} {contract : DlcContract}
    (found : formats.deserializeContract (byte :: rest) = .ok contract) :
    byte = (ContractPrefix.getPrefix contract).toByte := by
  cases known : ContractPrefix.ofByte byte with
  | error error =>
      rw [deserializeContract, known] at found
      cases found
  | ok value =>
      rw [deserializeContract, known] at found
      rw [← ContractPrefix.toByte_of_ofByte known]
      cases value <;>
        · obtain ⟨value, rfl⟩ := getPrefix_of_read found
          rfl

/-- The payload of the contract has a serialization, in the format of its state. -/
inductive HasPayload (formats : ContractFormats) : DlcContract → Prop
  | offered {c body} (written : formats.offered.serialize c = .ok body) :
      HasPayload formats (.offered c)
  | accepted {c body} (written : formats.accepted.serialize c = .ok body) :
      HasPayload formats (.accepted c)
  | signed {c body} (written : formats.signed.serialize c = .ok body) :
      HasPayload formats (.signed c)
  | confirmed {c body} (written : formats.signed.serialize c = .ok body) :
      HasPayload formats (.confirmed c)
  | preClosed {c body} (written : formats.preClosed.serialize c = .ok body) :
      HasPayload formats (.preClosed c)
  | closed {c body} (written : formats.closed.serialize c = .ok body) :
      HasPayload formats (.closed c)
  | failedAccept {c body} (written : formats.failedAccept.serialize c = .ok body) :
      HasPayload formats (.failedAccept c)
  | failedSign {c body} (written : formats.failedSign.serialize c = .ok body) :
      HasPayload formats (.failedSign c)
  | refunded {c body} (written : formats.signed.serialize c = .ok body) :
      HasPayload formats (.refunded c)
  | rejected {c body} (written : formats.offered.serialize c = .ok body) :
      HasPayload formats (.rejected c)

theorem HasPayload.serialized {formats : ContractFormats} {contract : DlcContract}
    (payload : formats.HasPayload contract) :
    ∃ body, formats.serialized contract = .ok body := by
  cases payload <;> exact ⟨_, ‹_›⟩

/-- Every contract is read back as it is, in its state, and only bytes that begin with the
byte of a state are read, as a contract in this state. -/
theorem deserializeContract_correct (formats : ContractFormats)
    (roundTrip : formats.PayloadRoundTrip) :
    (∀ contract, formats.HasPayload contract →
      ∃ bytes, formats.serializeContract contract = .ok bytes ∧
        formats.deserializeContract bytes = .ok contract) ∧
    (∀ contract bytes, formats.serializeContract contract = .ok bytes →
      formats.deserializeContract bytes = .ok contract) ∧
    (∀ bytes contract, formats.deserializeContract bytes = .ok contract →
      bytes.head? = some (ContractPrefix.getPrefix contract).toByte) ∧
    formats.deserializeContract [] = .error (.ioError "failed to fill whole buffer") ∧
    ∀ byte rest, (∀ value : ContractPrefix, value.toByte ≠ byte) →
      formats.deserializeContract (byte :: rest) =
        .error (.storageError "Unknown prefix") := by
  refine ⟨?_, fun _ _ => deserializeContract_serialized roundTrip, ?_, rfl, ?_⟩
  · intro contract payload
    obtain ⟨body, payload⟩ := payload.serialized
    exact ⟨_, serializeContract_of_serialized payload,
      deserializeContract_of_serialized roundTrip payload⟩
  · intro bytes contract found
    cases bytes with
    | nil => cases found
    | cons byte rest => rw [List.head?_cons, eq_toByte_of_deserializeContract found]
  · intro byte rest unknown
    rw [deserializeContract, ContractPrefix.ofByte_unknown unknown]
    rfl

/-- The provider that uses the formats. -/
def provider (formats : ContractFormats) (publicKey : String) :
    AsyncStorageApiProvider where
  publicKey := publicKey
  encode contract := (formats.serializeContract contract).map formats.base64Encode
  decode content :=
    match formats.base64Decode content with
    | .error error => .error error
    | .ok bytes => (formats.deserializeContract bytes).mapError formats.display

end ContractFormats

/-- The content of a contract is decoded to the contract. -/
def AsyncStorageApiProvider.RoundTrip (provider : AsyncStorageApiProvider) : Prop :=
  ∀ contract content, provider.encode contract = .ok content →
    provider.decode content = .ok contract

theorem ContractFormats.provider_roundTrip {formats : ContractFormats}
    (roundTrip : formats.RoundTrip) (publicKey : String) :
    (formats.provider publicKey).RoundTrip := by
  intro contract content encoded
  simp only [ContractFormats.provider] at encoded ⊢
  cases written : formats.serializeContract contract with
  | error error =>
      rw [written] at encoded
      cases encoded
  | ok bytes =>
      rw [written] at encoded
      obtain rfl := Except.ok.inj encoded
      rw [roundTrip.base64]
      dsimp only
      rw [deserializeContract_serialized roundTrip.payload written]
      rfl

/-! ## Formats to run with -/

namespace ContractFormats

def announcementCodec : TextCodec OracleAnnouncement :=
  (TextCodec.string.pair TextCodec.string).via
    (fun announcement => (announcement.oraclePublicKey, announcement.eventId))
    (fun (oraclePublicKey, eventId) => ⟨oraclePublicKey, eventId⟩) (fun _ => rfl)

def attestationCodec : TextCodec OracleAttestation :=
  (TextCodec.string.pair (TextCodec.string.list.pair TextCodec.string.list)).via
    (fun attestation =>
      (attestation.oraclePublicKey, attestation.signatures, attestation.outcomes))
    (fun (oraclePublicKey, signatures, outcomes) => ⟨oraclePublicKey, signatures, outcomes⟩)
    (fun _ => rfl)

def contractInfoCodec : TextCodec ContractInfo :=
  (announcementCodec.list.pair TextCodec.nat).via
    (fun info => (info.oracleAnnouncements, info.threshold))
    (fun (oracleAnnouncements, threshold) => ⟨oracleAnnouncements, threshold⟩) (fun _ => rfl)

def idCodec : TextCodec ContractId := TextCodec.uint8.vector

def offeredCodec : TextCodec OfferedContract :=
  (idCodec.pair (contractInfoCodec.list.pair TextCodec.string)).via
    (fun contract => (contract.id, contract.contractInfo, contract.counterParty))
    (fun (id, contractInfo, counterParty) => ⟨id, contractInfo, counterParty⟩)
    (fun _ => rfl)

def transactionCodec : TextCodec Transaction :=
  (TextCodec.string.pair TextCodec.nat).via
    (fun transaction => (transaction.txid, transaction.lockTime))
    (fun (txid, lockTime) => ⟨txid, lockTime⟩) (fun _ => rfl)

def dlcTransactionsCodec : TextCodec DlcTransactions :=
  (transactionCodec.pair (transactionCodec.pair TextCodec.string)).via
    (fun transactions =>
      (transactions.fund, transactions.refund, transactions.fundingScriptPubkey))
    (fun (fund, refund, fundingScriptPubkey) => ⟨fund, refund, fundingScriptPubkey⟩)
    (fun _ => rfl)

def adaptorInfoCodec : TextCodec AdaptorInfo :=
  TextCodec.nat.via
    (fun
      | .enum => 0
      | .numerical => 1
      | .numericalWithDifference => 2)
    (fun
      | 0 => .enum
      | 1 => .numerical
      | _ => .numericalWithDifference)
    (fun info => by cases info <;> rfl)

def acceptedCodec : TextCodec AcceptedContract :=
  (offeredCodec.pair (adaptorInfoCodec.list.pair (dlcTransactionsCodec.pair idCodec))).via
    (fun contract => (contract.offeredContract, contract.adaptorInfos,
      contract.dlcTransactions, contract.contractId))
    (fun (offeredContract, adaptorInfos, dlcTransactions, contractId) =>
      ⟨offeredContract, adaptorInfos, dlcTransactions, contractId⟩)
    (fun _ => rfl)

def signedCodec : TextCodec SignedContract :=
  (acceptedCodec.pair idCodec.option).via
    (fun contract => (contract.acceptedContract, contract.channelId))
    (fun (acceptedContract, channelId) => ⟨acceptedContract, channelId⟩) (fun _ => rfl)

def preClosedCodec : TextCodec PreClosedContract :=
  (signedCodec.pair (attestationCodec.list.option.pair transactionCodec)).via
    (fun contract => (contract.signedContract, contract.attestations, contract.signedCet))
    (fun (signedContract, attestations, signedCet) =>
      ⟨signedContract, attestations, signedCet⟩)
    (fun _ => rfl)

def closedCodec : TextCodec ClosedContract :=
  (attestationCodec.list.option.pair (transactionCodec.option.pair (idCodec.pair
    (idCodec.pair (TextCodec.string.pair TextCodec.int))))).via
    (fun contract => (contract.attestations, contract.signedCet, contract.contractId,
      contract.temporaryContractId, contract.counterPartyId, contract.pnl))
    (fun (attestations, signedCet, contractId, temporaryContractId, counterPartyId, pnl) =>
      ⟨attestations, signedCet, contractId, temporaryContractId, counterPartyId, pnl⟩)
    (fun _ => rfl)

def failedAcceptCodec : TextCodec FailedAcceptContract :=
  (offeredCodec.pair (idCodec.pair TextCodec.string)).via
    (fun contract => (contract.offeredContract, contract.acceptMessage.temporaryContractId,
      contract.errorMessage))
    (fun (offeredContract, temporaryContractId, errorMessage) =>
      ⟨offeredContract, ⟨temporaryContractId⟩, errorMessage⟩)
    (fun _ => rfl)

def failedSignCodec : TextCodec FailedSignContract :=
  (acceptedCodec.pair (idCodec.pair TextCodec.string)).via
    (fun contract => (contract.acceptedContract, contract.signMessage.contractId,
      contract.errorMessage))
    (fun (acceptedContract, contractId, errorMessage) =>
      ⟨acceptedContract, ⟨contractId⟩, errorMessage⟩)
    (fun _ => rfl)

end ContractFormats

/-- The format of a codec. -/
def Serializable.ofCodec {α : Type} (codec : TextCodec α) : Serializable α where
  serialize value := .ok (codec.toBytes value)
  deserialize := codec.readBytes

theorem Serializable.ofCodec_roundTrip {α : Type} (codec : TextCodec α) :
    (Serializable.ofCodec codec).RoundTrip := by
  rintro value bytes ⟨⟩
  exact codec.readBytes_toBytes value

def sampleFormats : ContractFormats where
  offered := .ofCodec ContractFormats.offeredCodec
  accepted := .ofCodec ContractFormats.acceptedCodec
  signed := .ofCodec ContractFormats.signedCodec
  preClosed := .ofCodec ContractFormats.preClosedCodec
  closed := .ofCodec ContractFormats.closedCodec
  failedAccept := .ofCodec ContractFormats.failedAcceptCodec
  failedSign := .ofCodec ContractFormats.failedSignCodec
  base64Encode := TextCodec.uint8.list.toText
  base64Decode := TextCodec.uint8.list.readText
  display _ := "error"

theorem sampleFormats_roundTrip : sampleFormats.RoundTrip where
  offered := Serializable.ofCodec_roundTrip _
  accepted := Serializable.ofCodec_roundTrip _
  signed := Serializable.ofCodec_roundTrip _
  preClosed := Serializable.ofCodec_roundTrip _
  closed := Serializable.ofCodec_roundTrip _
  failedAccept := Serializable.ofCodec_roundTrip _
  failedSign := Serializable.ofCodec_roundTrip _
  base64 bytes := TextCodec.uint8.list.readText_toText bytes

/-- A refunded contract is not read back as a signed one. -/
theorem deserializeContract_correct_sampleFormats :
    ∃ signed bytes, sampleFormats.serializeContract (.refunded signed) = .ok bytes ∧
      sampleFormats.deserializeContract bytes = .ok (.refunded signed) := by
  have correct := (ContractFormats.deserializeContract_correct sampleFormats
    sampleFormats_roundTrip.payload).1
  exact ⟨⟨⟨⟨.replicate 32 1, [], "peer"⟩, [], ⟨⟨"fund", 0⟩, ⟨"refund", 0⟩, "script"⟩,
    .replicate 32 2⟩, none⟩, correct _ (.refunded rfl)⟩

/-- A format for a few values, each written as bytes in the number of its place. -/
def Serializable.ofList {α : Type} [DecidableEq α] (values : List α) : Serializable α where
  serialize value :=
    match values.findIdx? (· = value) with
    | some index => .ok (List.replicate index 0)
    | none => .error "not listed"
  deserialize bytes :=
    match values[bytes.length]? with
    | some value => .ok value
    | none => .error "not listed"

theorem Serializable.ofList_roundTrip {α : Type} [DecidableEq α] (values : List α) :
    (Serializable.ofList values).RoundTrip := by
  intro value bytes written
  simp only [ofList] at written ⊢
  cases found : values.findIdx? (· = value) with
  | none =>
      rw [found] at written
      cases written
  | some index =>
      rw [found] at written
      obtain rfl := Except.ok.inj written
      obtain ⟨inside, same, _⟩ := List.findIdx?_eq_some_iff_getElem.mp found
      rw [List.length_replicate, List.getElem?_eq_getElem inside, of_decide_eq_true same]

/-- Formats for a few signed and pre-closed contracts; a byte is written as the
character with its number. -/
def fewFormats (signed : List SignedContract) (preClosed : List PreClosedContract)
    (closed : List ClosedContract) : ContractFormats where
  offered := .ofList []
  accepted := .ofList []
  signed := .ofList signed
  preClosed := .ofList preClosed
  closed := .ofList closed
  failedAccept := .ofList []
  failedSign := .ofList []
  base64Encode bytes := String.ofList (bytes.map fun byte => Char.ofNat byte.toNat)
  base64Decode text := .ok (text.toList.map fun char => UInt8.ofNat char.toNat)
  display _ := "error"

theorem fewFormats_roundTrip (signed : List SignedContract)
    (preClosed : List PreClosedContract) (closed : List ClosedContract) :
    (fewFormats signed preClosed closed).RoundTrip where
  offered := Serializable.ofList_roundTrip []
  accepted := Serializable.ofList_roundTrip []
  signed := Serializable.ofList_roundTrip _
  preClosed := Serializable.ofList_roundTrip _
  closed := Serializable.ofList_roundTrip _
  failedAccept := Serializable.ofList_roundTrip []
  failedSign := Serializable.ofList_roundTrip []
  base64 := by
    intro bytes
    have back (byte : UInt8) : UInt8.ofNat (Char.ofNat byte.toNat).toNat = byte := by
      have all : ∀ number < 256, (Char.ofNat number).toNat = number := by decide +kernel
      rw [all byte.toNat byte.toNat_lt, UInt8.ofNat_toNat]
    simp [fewFormats, Function.comp_def, back]

end Clients

end DlcStack
