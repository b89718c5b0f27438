import DlcStack.JsDlcInterface
import DlcStack.ManagerIsolation

/-!
# Contracts as the browser sees them

`JsContract` names a contract by the hexadecimal text of its identifier.  The calls
that take such a text back read its first 32 characters as the identifier itself,
and the text of only one identifier starts with that identifier.
-/

namespace DlcStack

namespace JsDlcInterface

open Program hiding ask
open LinkManager Clients Clients.AsyncStorageApiProvider

/-- `hex_str` -/
def hexStr (value : List UInt8) : String :=
  String.ofList (value.flatMap hexByte)

structure JsContract where
  id : String
  state : String
  acceptorCollateral : String
  txId : String
  deriving DecidableEq, Repr

/-- `from_contract`, given the `accept_params.collateral` of accepted contracts. -/
def JsContract.fromContract (collateral : AcceptedContract → Nat)
    (contract : DlcContract) : JsContract where
  id := hexStr contract.getId.toList
  state :=
    match contract with
    | .offered _ => "Offered"
    | .accepted _ => "Accepted"
    | .signed _ => "Signed"
    | .confirmed _ => "Confirmed"
    | .preClosed _ => "Pre-Closed"
    | .closed _ => "Closed"
    | .refunded _ => "Refunded"
    | .failedAccept _ => "Accept Failed"
    | .failedSign _ => "Sign Failed"
    | .rejected _ => "Rejected"
  acceptorCollateral :=
    match contract with
    | .accepted c => (collateral c).repr
    | .signed c | .confirmed c | .refunded c => (collateral c.acceptedContract).repr
    | .failedSign c => (collateral c.acceptedContract).repr
    | .preClosed c => (collateral c.signedContract.acceptedContract).repr
    | _ => ""
  txId :=
    match contract with
    | .accepted c => c.dlcTransactions.fund.txid
    | .signed c | .confirmed c | .refunded c => c.acceptedContract.dlcTransactions.fund.txid
    | .failedSign c => c.acceptedContract.dlcTransactions.fund.txid
    | .preClosed c => (collateral c.signedContract.acceptedContract).repr
    | _ => ""

/-- `get_contract`, where `JsValue::NULL` is `none`. -/
def getContract (manager : Manager) (collateral : AcceptedContract → Nat)
    (contractStr : String) : JsM (Option JsContract) :=
  match readContractId contractStr with
  | none => throw (walletError (manager.display (.ioError "short read")))
  | some contractId => do
      match ← ExceptT.adapt manager.display (ask (.getContract contractId)) with
      | some contract => return some (.fromContract collateral contract)
      | none => return none

/-! ## What is read of a hexadecimal text -/

/-- The byte of a digit in a text. -/
def digitByte (digit : Nat) : UInt8 :=
  UInt8.ofNat (hexDigit digit).toNat

private theorem utf8EncodeChar_hexDigit {digit : Nat} (small : digit < 16) :
    String.utf8EncodeChar (hexDigit digit) = [digitByte digit] := by
  have all : ∀ digit : Fin 16,
      String.utf8EncodeChar (hexDigit digit) = [digitByte digit] := by decide
  exact all ⟨digit, small⟩

/-- The bytes of a hexadecimal text, two for each byte of the value. -/
theorem toUTF8_hexStr (value : List UInt8) :
    (hexStr value).toUTF8.data = (value.flatMap fun byte =>
      [digitByte (byte.toNat / 16), digitByte (byte.toNat % 16)]).toArray := by
  have encoded : (value.flatMap hexByte).flatMap String.utf8EncodeChar =
      value.flatMap fun byte =>
        [digitByte (byte.toNat / 16), digitByte (byte.toNat % 16)] := by
    induction value with
    | nil => rfl
    | cons byte bytes ih =>
        have bound := byte.toNat_lt
        rw [List.flatMap_cons, List.flatMap_append, ih, List.flatMap_cons]
        simp [hexByte, utf8EncodeChar_hexDigit (show byte.toNat / 16 < 16 by omega),
          utf8EncodeChar_hexDigit (show byte.toNat % 16 < 16 by omega)]
  rw [hexStr, String.toUTF8_eq_toByteArray, String.toByteArray_ofList, List.utf8Encode,
    encoded]
  simp

/-- A list of pairs, element by element. -/
private theorem getElem?_flatMap_pair {α β : Type} (even odd : α → β) (values : List α)
    (index : Nat) :
    (values.flatMap fun value => [even value, odd value])[index]? =
      values[index / 2]?.map (if index % 2 = 0 then even else odd) := by
  induction values generalizing index with
  | nil => simp
  | cons value values ih =>
      match index with
      | 0 => simp
      | 1 => simp
      | index + 2 =>
          have half : (index + 2) / 2 = index / 2 + 1 := by omega
          have parity : (index + 2) % 2 = index % 2 := by omega
          simpa [half, parity] using ih index

/-- The identifier whose bytes are the digits `3`, of which the byte of a `3` consists. -/
def selfNamed : ContractId :=
  Vector.replicate 32 0x33

/-- Bytes that are the digits of their own front are all alike: the first one is
its own first digit, and every other is a digit of one before it. -/
private theorem eq_selfNamed_of_digits {bytes : List UInt8} (long : bytes.length = 32)
    (same : (bytes.flatMap fun byte =>
      [digitByte (byte.toNat / 16), digitByte (byte.toNat % 16)]).take 32 = bytes) :
    bytes = selfNamed.toList := by
  have digit (index : Nat) (inside : index < 32) :
      bytes[index]? = bytes[index / 2]?.map (if index % 2 = 0 then
        fun byte => digitByte (byte.toNat / 16)
        else fun byte => digitByte (byte.toNat % 16)) := by
    have taken := congrArg (·[index]?) same
    rw [List.getElem?_take_of_lt inside] at taken
    rw [← getElem?_flatMap_pair, taken]
  have own (byte : UInt8) (digit : digitByte (byte.toNat / 16) = byte) : byte = 0x33 := by
    have each : ∀ number < 256,
        digitByte (number / 16) = UInt8.ofNat number → number = 0x33 := by decide +kernel
    have number := each byte.toNat byte.toNat_lt (by rw [digit, UInt8.ofNat_toNat])
    exact UInt8.toNat_inj.mp number
  have all : ∀ index, index < 32 → bytes[index]? = some 0x33 := by
    intro index
    induction index using Nat.strong_induction_on with
    | h index ih =>
        intro inside
        have written := digit index inside
        by_cases first : index = 0
        · subst first
          cases stored : bytes[0]? with
          | none =>
              rw [List.getElem?_eq_none_iff] at stored
              omega
          | some byte =>
              rw [stored] at written
              simp only [Nat.zero_mod, if_true, Option.map_some,
                Option.some.injEq] at written
              rw [own byte written.symm]
        · rw [written, ih (index / 2) (by omega) (by omega)]
          split_ifs <;> decide
  refine List.ext_getElem? fun index => ?_
  by_cases inside : index < 32
  · rw [all index inside, selfNamed, Vector.toList_replicate,
      List.getElem?_replicate_of_lt inside]
  · rw [List.getElem?_eq_none (by omega), List.getElem?_eq_none (by simp; omega)]

/-- The text of an identifier is read as an identifier, and as itself only for one. -/
theorem readContractId_hexStr (id : ContractId) :
    ∃ other, readContractId (hexStr id.toList) = some other ∧
      (other = id ↔ id = selfNamed) := by
  have bytes := toUTF8_hexStr id.toList
  have size : 32 ≤ (hexStr id.toList).toUTF8.data.size := by
    rw [bytes, List.size_toArray, List.length_flatMap]
    simp
  unfold readContractId
  rw [dif_pos size]
  refine ⟨_, rfl, ?_⟩
  rw [← Vector.toList_inj]
  have front : (Vector.mk ((hexStr id.toList).toUTF8.data.extract 0 32)
      (by rw [Array.size_extract]; omega) : ContractId).toList =
        (id.toList.flatMap fun byte =>
          [digitByte (byte.toNat / 16), digitByte (byte.toNat % 16)]).take 32 := by
    change ((hexStr id.toList).toUTF8.data.extract 0 32).toList = _
    rw [bytes]
    simp
  rw [front]
  constructor
  · intro same
    exact Vector.toList_inj.mp (eq_selfNamed_of_digits id.length_toList same)
  · rintro rfl
    decide +kernel

/-! ## The calls on the records of the storage API -/

section Calls

variable {provider : AsyncStorageApiProvider} {around : Nat → Surroundings}
  {db : Storage.Database}

/-- What `get_contract` answers for an identifier that can be read. -/
theorem eval_getContract (manager : Manager) (time : Nat) (collateral : AcceptedContract → Nat)
    (up : ∀ time request, (around time).link request = .up) {text : String}
    {id : ContractId} (read : readContractId text = some id)
    {found : Option DlcContract}
    (stored : delivered (provider.getContract id) db = (.ok found, db)) :
    (eval (serveRows provider around) (getContract manager collateral text).run
        (db, time)).2.1 =
      .ok (found.map (JsContract.fromContract collateral)) := by
  have served : serveRows provider around (db, time) (.getContract id) =
      (.ok found, db, time) := by
    simp only [serveRows, up, Link.pass, stored]
  have asked : (eval (serveRows provider around)
      (ExceptT.adapt manager.display (ask (.getContract id))).run (db, time)).2 =
        (.ok found, db, time) := by
    rw [eval_adapt_snd]
    exact congrArg (fun outcome => (outcome.1.mapError manager.display, outcome.2)) served
  unfold getContract
  rw [read]
  dsimp only
  rw [eval_run_bind _ asked]
  cases found <;> rfl

/-- `reject_offer` once its identifier is read and the record asked for. -/
private theorem eval_rejectOffer (manager : Manager) (time : Nat)
    (up : ∀ time request, (around time).link request = .up) {text : String}
    {id : ContractId} (read : readContractId text = some id)
    {found : Option DlcContract}
    (stored : delivered (provider.getContract id) db = (.ok found, db)) :
    (∀ offer, found = some (.offered offer) →
      (eval (serveRows provider around) (rejectOffer manager text).run
          (db, time)).2.2.1 =
        (delivered (provider.updateContract (.rejected offer)) db).2) ∧
    ((∀ offer, found ≠ some (.offered offer)) →
      (eval (serveRows provider around) (rejectOffer manager text).run
        (db, time)).2.2.1 = db) := by
  have served : (eval (serveRows provider around) (ask (.getContract id)).run
      (db, time)).2 = (.ok found, db, time) := by
    change serveRows provider around (db, time) (.getContract id) = _
    simp only [serveRows, up, Link.pass, stored]
  unfold rejectOffer toWalletError LinkManager.rejectOffer
  rw [eval_adapt_snd, eval_adapt_snd, read]
  dsimp only
  rw [eval_run_bind _ served]
  constructor
  · rintro offer rfl
    change (serveRows provider around (db, time) (.updateContract (.rejected offer))).2.1 = _
    simp only [serveRows, up, Link.pass]
  · intro notOffered
    split
    · rename_i offer
      exact absurd rfl (notOffered offer)
    · rfl

/-- A rejected contract is serialized like the offer. -/
private theorem encode_rejected {formats : ContractFormats} {publicKey : String}
    {offered : OfferedContract} {content : String}
    (encoded : (formats.provider publicKey).encode (.offered offered) = .ok content) :
    ∃ other, (formats.provider publicKey).encode (.rejected offered) = .ok other := by
  simp only [ContractFormats.provider, ContractFormats.serializeContract,
    ContractFormats.serialized] at encoded ⊢
  cases body : formats.offered.serialize offered with
  | error error =>
      rw [body] at encoded
      cases encoded
  | ok bytes => exact ⟨_, rfl⟩

/-- The record that a coherent database has under an identifier is that of a contract
with this identifier. -/
private theorem delivered_getContract_coherent (coherent : provider.CoherentRows db)
    (id : ContractId) :
    ∃ found, delivered (provider.getContract id) db = (.ok found, db) ∧
      ∀ contract, found = some contract → contract.getId = id ∧
        ∃ row, db.contracts.find? (provider.finalKey contract) = some row ∧
          provider.decode row.content = .ok contract := by
  cases stored : db.contracts.find? (provider.publicKey, getContractIdString id) with
  | none => exact ⟨none, delivered_getContract_none stored, by simp⟩
  | some row =>
      obtain ⟨member, key⟩ := UniqueTable.find?_eq_some_iff.mp stored
      obtain ⟨sameKey, sameUuid⟩ := Prod.mk.inj key
      obtain ⟨contract, decoded, uuid, _⟩ := coherent row member sameKey
      have sameId : contract.getId = id :=
        getContractIdString_injective (uuid.symm.trans sameUuid)
      refine ⟨some contract, delivered_getContract_some stored decoded, ?_⟩
      rintro _ ⟨⟩
      refine ⟨sameId, row, ?_, decoded⟩
      rw [finalKey, sameId]
      exact stored

/-- `reject_offer` leaves the records under other identifiers alone. -/
private theorem find?_rejectOffer_other (manager : Manager) (time : Nat)
    (up : ∀ time request, (around time).link request = .up)
    (coherent : provider.CoherentRows db) {text : String} {id : ContractId}
    (read : readContractId text = some id) {key : String × String}
    (other : key ≠ (provider.publicKey, getContractIdString id)) :
    (eval (serveRows provider around) (rejectOffer manager text).run
        (db, time)).2.2.1.contracts.find? key = db.contracts.find? key := by
  obtain ⟨stored, answered, isStored⟩ := delivered_getContract_coherent coherent id
  obtain ⟨offered, notOffered⟩ := eval_rejectOffer manager time up read answered
  by_cases isOffered : ∃ offer, stored = some (.offered offer)
  · obtain ⟨offer, isOffer⟩ := isOffered
    obtain ⟨sameId, row, found, -⟩ := isStored _ isOffer
    have updated := (@delivered_updateContract provider db (.rejected offer) row rfl found).2
    have elsewhere : key ≠ provider.finalKey (.rejected offer) := by
      rw [← sameId] at other
      exact other
    rw [offered offer isOffer, updated, if_neg elsewhere]
  · rw [notOffered fun offer isOffer => isOffered ⟨offer, isOffer⟩]

/-- Different identifiers have different texts. -/
private theorem hexStr_inj {first second : ContractId}
    (same : hexStr first.toList = hexStr second.toList) : first = second := by
  apply getContractIdString_injective
  unfold getContractIdString
  rw [String.ofList_injective same]

end Calls

/-- The calls that take the reported identifier of a stored contract find the contract
exactly if it is the one whose text starts with itself. -/
theorem reported_id_iff {formats : ContractFormats} (roundTrip : formats.RoundTrip)
    (publicKey : String) (manager : Manager) (collateral : AcceptedContract → Nat)
    {around : Nat → Surroundings}
    (up : ∀ time request, (around time).link request = .up)
    {db : Storage.Database} (time : Nat)
    (coherent : (formats.provider publicKey).CoherentRows db)
    {contract : DlcContract} {row : Storage.Contract}
    (found : db.contracts.find? ((formats.provider publicKey).finalKey contract) =
      some row)
    (holds : (formats.provider publicKey).Holds contract row) :
    let provider := formats.provider publicKey
    let reported := JsContract.fromContract collateral contract
    ((eval (serveRows provider around) (getContract manager collateral reported.id).run
        (db, time)).2.1 = .ok (some reported) ↔ contract.getId = selfNamed) ∧
    ∀ offered, contract = .offered offered →
      ((∃ row, (eval (serveRows provider around) (rejectOffer manager reported.id).run
          (db, time)).2.2.1.contracts.find? (provider.finalKey contract) = some row ∧
        provider.Holds (.rejected offered) row) ↔ contract.getId = selfNamed) := by
  intro provider reported
  obtain ⟨other, read, same⟩ := readContractId_hexStr contract.getId
  have read : readContractId reported.id = some other := read
  have decoded : provider.decode row.content = .ok contract :=
    ContractFormats.provider_roundTrip roundTrip publicKey contract row.content holds.2
  obtain ⟨stored, answered, isStored⟩ :=
    @delivered_getContract_coherent provider db coherent other
  have here (itself : other = contract.getId) : stored = some contract := by
    subst itself
    rw [delivered_getContract_some found decoded] at answered
    exact (Except.ok.inj (Prod.mk.inj answered).1).symm
  rw [← same]
  constructor
  · rw [eval_getContract manager time collateral up read answered]
    constructor
    · intro returned
      obtain ⟨other, rfl, reports⟩ := Option.map_eq_some_iff.mp (Except.ok.inj returned)
      rw [← (isStored other rfl).1]
      exact hexStr_inj (congrArg JsContract.id reports)
    · intro itself
      rw [here itself]
      rfl
  · rintro offered rfl
    constructor
    · rintro ⟨after, rejected, rejectedState, -⟩
      by_contra different
      have elsewhere : provider.finalKey (.offered offered) ≠
          (provider.publicKey, getContractIdString other) := by
        intro sameKey
        exact different (getContractIdString_injective (Prod.mk.inj sameKey).2).symm
      rw [find?_rejectOffer_other manager time up coherent read elsewhere, found] at rejected
      obtain rfl := Option.some.inj rejected
      rw [holds.1] at rejectedState
      simp [DlcContract.getContractStateStr] at rejectedState
    · intro itself
      obtain ⟨content, encoded⟩ := encode_rejected holds.2
      have rejected := (eval_rejectOffer manager time up read answered).1 offered
        (here itself)
      have updated :=
        (@delivered_updateContract provider db (.rejected offered) row rfl found).2
          (provider.finalKey (.rejected offered))
      rw [if_pos rfl] at updated
      rw [rejected]
      refine ⟨_, updated, ?_⟩
      unfold updateRow
      rw [encoded]
      exact ⟨rfl, encoded⟩

/-! ## Offers to run on -/

/-- An offer under the identifier that names itself, and one under another. -/
def sampleOffers : List OfferedContract :=
  [sampleOffer selfNamed, sampleOffer (Vector.replicate 32 1)]

/-- Formats for these offers. -/
def offerFormats : ContractFormats :=
  { fewFormats [] [] [] with offered := .ofList sampleOffers }

theorem offerFormats_roundTrip : offerFormats.RoundTrip :=
  { fewFormats_roundTrip [] [] [] with
    offered := Serializable.ofList_roundTrip sampleOffers }

/-- The database of a browser wallet with an offer. -/
def offerDatabase (id : ContractId) : Storage.Database :=
  databaseOf [recordOf (offerFormats.provider "alice") (.offered (sampleOffer id))]

/-- The row of the offer. -/
def offerRow (id : ContractId) : Storage.Contract :=
  let record := recordOf (offerFormats.provider "alice") (.offered (sampleOffer id))
  ⟨1, record.uuid, record.state, record.content, record.key⟩

theorem offerDatabase_coherent {id : ContractId}
    (encodes : ((offerFormats.provider "alice").encode
      (.offered (sampleOffer id))).isOk = true) :
    (offerFormats.provider "alice").CoherentRows (offerDatabase id) := by
  refine @coherentRows_databaseOf (offerFormats.provider "alice")
    (offerFormats.provider_roundTrip offerFormats_roundTrip "alice")
    [.offered (sampleOffer id)] ?_
  intro contract member
  obtain rfl := List.mem_singleton.mp member
  exact encodes

/-- The offer that names itself is found. -/
theorem reported_id_selfNamed :
    (eval (serveRows (offerFormats.provider "alice") confirmingAll)
      (getContract sampleManager (fun _ => 0)
        (JsContract.fromContract (fun _ => 0) (.offered (sampleOffer selfNamed))).id).run
        (offerDatabase selfNamed, 0)).2.1 =
      .ok (some (.fromContract (fun _ => 0) (.offered (sampleOffer selfNamed)))) := by
  have stored : (offerDatabase selfNamed).contracts.find?
      ((offerFormats.provider "alice").finalKey (.offered (sampleOffer selfNamed))) =
        some (offerRow selfNamed) := by decide +kernel
  have holds : (offerFormats.provider "alice").Holds (.offered (sampleOffer selfNamed))
      (offerRow selfNamed) := ⟨by decide +kernel, by decide +kernel⟩
  have found := (reported_id_iff offerFormats_roundTrip "alice" sampleManager (fun _ => 0)
    (fun _ _ => rfl : ∀ time request, (confirmingAll time).link request = .up) 0
    (offerDatabase_coherent (by decide +kernel)) stored holds).1
  exact found.mpr rfl

/-- The other offer is not found under the identifier reported for it, and is not
rejected. -/
theorem not_reported_id :
    ¬ ∀ (formats : ContractFormats), formats.RoundTrip → ∀ (publicKey : String)
      (manager : Manager) (collateral : AcceptedContract → Nat)
      (around : Nat → Surroundings),
      (∀ time request, (around time).link request = .up) →
      ∀ (db : Storage.Database) (time : Nat) (contract : DlcContract)
        (row : Storage.Contract),
        (formats.provider publicKey).CoherentRows db →
        db.contracts.find? ((formats.provider publicKey).finalKey contract) = some row →
        (formats.provider publicKey).Holds contract row →
        let provider := formats.provider publicKey
        let reported := JsContract.fromContract collateral contract
        (eval (serveRows provider around) (getContract manager collateral reported.id).run
            (db, time)).2.1 = .ok (some reported) ∧
        ∀ offered, contract = .offered offered →
          ∃ row, (eval (serveRows provider around) (rejectOffer manager reported.id).run
              (db, time)).2.2.1.contracts.find? (provider.finalKey contract) = some row ∧
            provider.Holds (.rejected offered) row := by
  intro claimed
  have found := (claimed offerFormats offerFormats_roundTrip "alice" sampleManager
    (fun _ => 0) confirmingAll (fun _ _ => rfl) (offerDatabase (Vector.replicate 32 1)) 0
    (.offered (sampleOffer (Vector.replicate 32 1))) (offerRow (Vector.replicate 32 1))
    (offerDatabase_coherent (by decide +kernel)) (by decide +kernel)
    ⟨by decide +kernel, by decide +kernel⟩).1
  exact absurd found (by decide +kernel)

end JsDlcInterface

end DlcStack
