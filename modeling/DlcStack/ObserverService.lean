import DlcStack.AttestorClient
import DlcStack.AttestorOutcomes
import DlcStack.Binary64

/-!
# The observer

The observer of an attestor lets it announce an event for every new contract on a chain
and attest it when the contract closes, and answers the requests of clients about its
events.  What it answers is the JSON that JavaScript makes of the record.
-/

namespace DlcStack

open Storage (Json)

/-! ## Members of JSON objects -/

namespace Storage.Json

/-- Members of different names are all kept. -/
theorem toMembers_of_distinct {read members : List (String × Json)}
    (distinct : ((read ++ members).map Prod.fst).Nodup) :
    toMembers members read =
      read ++ members.map fun member => (member.1, toValue member.2) := by
  induction members generalizing read with
  | nil => simp [toMembers]
  | cons member members ih =>
      obtain ⟨name, value⟩ := member
      have absent : read.filter (fun other => other.1 ≠ name) = read := by
        apply List.filter_eq_self.mpr
        intro other isRead
        simp only [List.map_append, List.map_cons, List.nodup_append] at distinct
        have apart := distinct.2.2 other.1 (List.mem_map_of_mem isRead) name (by simp)
        simpa using apart
      rw [toMembers, insertMember, absent, ih]
      · simp
      · simpa using distinct

/-- A member of an object, after the object is read. -/
theorem index_toValue_object {members : List (String × Json)}
    (distinct : (members.map Prod.fst).Nodup) (name : String) :
    (toValue (.object members)).index name = ((Json.object members).index name).toValue := by
  rw [toValue, toMembers_of_distinct (by simpa using distinct), List.nil_append]
  unfold index
  dsimp only
  rw [List.find?_map]
  change ((members.find? fun member => member.1 = name).map _ |>.map Prod.snd).getD _ = _
  cases members.find? fun member => member.1 = name with
  | none => rfl
  | some member => rfl

end Storage.Json

namespace WasmAttestor

open Program Clients

/-! ## Events as JSON -/

/-- A member whose value is `undefined` is not written. -/
def optionMember (name : String) : Option Json → List (String × Json)
  | none => []
  | some value => [(name, value)]

/-- What `serde_wasm_bindgen` and `JSON.stringify` make of an event; a `u64` that is not
a number of JavaScript is an error. -/
def ApiOracleEvent.toJson (number : Nat → Option String) (event : ApiOracleEvent) :
    Option Json := do
  let outcome ← event.outcome.mapM number
  return .object
    ([("event_id", .string event.eventId), ("uuid", .string event.uuid),
      ("rust_announcement_json", .string event.rustAnnouncementJson),
      ("rust_announcement", .string event.rustAnnouncement)] ++
      optionMember "rust_attestation_json" (event.rustAttestationJson.map .string) ++
      optionMember "rust_attestation" (event.rustAttestation.map .string) ++
      [("maturation", .string event.maturation)] ++
      optionMember "outcome" (outcome.map .number) ++
      optionMember "chain" (event.chain.map .string))

/-- The texts of an event that clients read are those of its JSON. -/
theorem ApiOracleEvent.index_toJson {number : Nat → Option String} {event : ApiOracleEvent}
    {json : Json} (shown : event.toJson number = some json) :
    json.toValue.index "rust_announcement" = .string event.rustAnnouncement ∧
      json.toValue.index "rust_attestation" =
        (event.rustAttestation.map Json.string).getD .null ∧
      json.toValue.index "chain" = (event.chain.map Json.string).getD .null := by
  obtain ⟨outcome, -, made⟩ := Option.bind_eq_some_iff.mp shown
  obtain rfl := Option.some.inj made
  rw [Json.index_toValue_object, Json.index_toValue_object, Json.index_toValue_object]
  · refine ⟨?_, ?_, ?_⟩ <;>
      cases event.rustAttestationJson <;> cases event.rustAttestation <;> cases outcome <;>
        cases event.chain <;> simp [optionMember, Json.index, Json.toValue]
  all_goals
    cases event.rustAttestationJson <;> cases event.rustAttestation <;> cases outcome <;>
      cases event.chain <;> simp [optionMember]

/-- `get_all` -/
def getAll (attestor : Attestor) :
    ExceptT OracleError AttestorProgram (Option (List (String × String))) := do
  let events ← storage (StorageApiClient.getEvents ⟨attestor.publicKey, none⟩)
  let result ← ExceptT.mk (pure (events.mapM fun event =>
    ((attestor.encodings.base64Decode event.content).mapError .base64DecodeError).map
      fun content => (event.eventId, content)))
  return some result

/-- `get_events` -/
def getEvents (attestor : Attestor) (texts : EventTexts) (number : Nat → Option String) :
    ExceptT String AttestorProgram Json := do
  match ← ExceptT.lift (getAll attestor).run with
  | .error _ => throw "[WASM-ATTESTOR] Error getting all events"
  | .ok none => throw "[WASM-ATTESTOR] Error: events is None"
  | .ok (some events) =>
      match events.mapM fun event => parseDatabaseEntry attestor texts event.2 with
      | .error error => throw error
      | .ok events =>
          match events.mapM (ApiOracleEvent.toJson number) with
          | none => throw "[WASM-ATTESTOR] Error serializing events to JSON"
          | some events => return .array events

/-- `get_pubkey` -/
def getPubkey (attestor : Attestor) : PublicKey :=
  attestor.oraclePublicKey

end WasmAttestor

/-! ## The service -/

/-- An observer: its attestor, and how JavaScript shows the events. -/
structure ObserverService where
  attestor : WasmAttestor.Attestor
  texts : WasmAttestor.EventTexts
  /-- The text of the number that JavaScript has for a `u64`. -/
  number : Nat → Option String

namespace ObserverService

open Program WasmAttestor

/-- The texts of the numbers that `serde_wasm_bindgen` makes: of the safe integers. -/
def safeInteger (value : Nat) : Option String :=
  if value < 2 ^ 53 then some value.repr else none

/-- `formatOutcome(Number(value))`: half of a unit is rounded up.  `BigInt` throws where the
number is infinite. -/
def formatOutcome (value : ℤ) (precisionShift : Nat) : Option ℤ :=
  if |Binary64.nearest value| < 2 ^ 1024 then
    some ⌊Binary64.nearest (Binary64.nearest value / 10 ^ precisionShift) + 1 / 2⌋
  else none

/-- The `u64` that the attestor is passed for a `bigint`. -/
def toU64 (value : ℤ) : Nat :=
  (value % 2 ^ 64).toNat

/-- From a `bigint` on the observer's route to the outcome that is attested. -/
example : (formatOutcome 18446744073709559808 0).map toU64 = some 8192 ∧
    (formatOutcome 149 2).map toU64 = some 1 ∧ (formatOutcome 150 2).map toU64 = some 2 ∧
    (formatOutcome (10 ^ 309) 0).map toU64 = none := by
  decide +kernel

/-- What the functions of the service return. -/
inductive Reply where
  | announced (uuid maturation : String)
  | attested (uuid : String) (outcome : ℤ)
  | failed (error : String)
  | thrown
  | event (event : Option Json)
  | events (events : Option Json)
  | publicKey (key : PublicKey)
  | nothing

/-- `createAnnouncement` -/
def createAnnouncement (service : ObserverService) (uuid maturation chain : String) :
    AttestorProgram Reply := do
  match ← (createEvent service.attestor uuid maturation chain).run with
  | .ok () => return .announced uuid maturation
  | .error error => return .failed error

/-- `createAttestation` -/
def createAttestation (service : ObserverService) (uuid : String) (value : ℤ)
    (precisionShift : Nat) : AttestorProgram Reply :=
  match formatOutcome value precisionShift with
  | none => return .thrown
  | some formattedOutcome => do
      match ← (attest service.attestor uuid (toU64 formattedOutcome)).run with
      | .ok () => return .attested uuid formattedOutcome
      | .error error => return .failed error

/-- `getEvent`, which is null where there is no event and where it cannot be shown. -/
def getEvent (service : ObserverService) (uuid : String) : AttestorProgram (Option Json) := do
  match ← (WasmAttestor.getEvent service.attestor service.texts uuid).run with
  | .ok (some event) => return event.toJson service.number
  | .ok none => return none
  | .error _ => return none

/-- `getAllEvents` -/
def getAllEvents (service : ObserverService) : AttestorProgram (Option Json) := do
  return (← (getEvents service.attestor service.texts service.number).run).toOption

/-! ## What it is called for -/

/-- The chains that are observed. -/
inductive Blockchain where
  | ethereumNetwork
  | stacksNetwork
  deriving DecidableEq, Repr

/-- The decimal places by which the outcomes of a chain are shifted. -/
def Blockchain.precisionShift : Blockchain → Nat
  | ethereumNetwork => 2
  | stacksNetwork => 0

/-- The events on the chains, and the routes of the server. -/
inductive ObserverCall where
  | createDlc (uuid maturation chain : String)
  | closeDlc (blockchain : Blockchain) (uuid : String) (outcome : ℤ)
  | createAnnouncementRoute (uuid maturation chain : String)
  | createAttestationRoute (uuid : String) (outcome : ℤ)
  | eventRoute (uuid : String)
  | eventsRoute
  | publicKeyRoute

def ObserverCall.run (service : ObserverService) : ObserverCall → AttestorProgram Reply
  | createDlc uuid maturation chain => do
      let _ ← service.createAnnouncement uuid maturation chain
      let _ ← service.getEvent uuid
      return .nothing
  | closeDlc blockchain uuid outcome => do
      match ← service.createAttestation uuid outcome blockchain.precisionShift with
      | .thrown => return .nothing
      | _ =>
          let _ ← service.getEvent uuid
          return .nothing
  | createAnnouncementRoute uuid maturation chain =>
      service.createAnnouncement uuid maturation chain
  | createAttestationRoute uuid outcome => service.createAttestation uuid outcome 0
  | eventRoute uuid => return .event (← service.getEvent uuid)
  | eventsRoute => return .events (← service.getAllEvents)
  | publicKeyRoute => return .publicKey (getPubkey service.attestor)

/-- The call of the attestor by which a record may be set. -/
def ObserverCall.writes : ObserverCall → Option AttestorCall
  | createDlc uuid maturation chain => some (.createEvent uuid maturation chain)
  | closeDlc blockchain uuid outcome =>
      (formatOutcome outcome blockchain.precisionShift).map fun formattedOutcome =>
        .attest uuid (toU64 formattedOutcome)
  | createAnnouncementRoute uuid maturation chain =>
      some (.createEvent uuid maturation chain)
  | createAttestationRoute uuid outcome =>
      (formatOutcome outcome 0).map fun formattedOutcome =>
        .attest uuid (toU64 formattedOutcome)
  | eventRoute _ => none
  | eventsRoute => none
  | publicKeyRoute => none

/-- The call announces the event. -/
def ObserverCall.Creates (call : ObserverCall) (uuid : String) : Prop :=
  ∃ maturation chain, call.writes = some (.createEvent uuid maturation chain)

/-- The call attests the event for this outcome. -/
def ObserverCall.Attests (call : ObserverCall) (uuid : String) (outcome : Nat) : Prop :=
  call.writes = some (.attest uuid outcome)

end ObserverService

/-! ## What clients read -/

namespace AttestorClient

/-- `get_chain` -/
def getChain (client : AttestorClient) (eventId : String) : Except DlcError String :=
  match client.getJson (client.eventPath eventId) with
  | .error error =>
      .error (.oracleError ("Error getting announcement: " ++ client.display error))
  | .ok json =>
      match (json.index "chain").asStr with
      | none => .error (.oracleError ("missing chain for event " ++ eventId))
      | some chain => .ok chain

/-- The digits that are written for a number below sixteen are read as it. -/
theorem toDigit16_hexDigit {digit : Nat} (small : digit < 16) :
    toDigit16 (hexDigit digit) = some digit := by
  have all : ∀ digit : Fin 16, toDigit16 (hexDigit digit) = some digit.val := by
    decide
  exact all ⟨digit, small⟩

/-- The text that is written for bytes is read as them. -/
theorem hexPairs_hexByte (bytes : List UInt8) :
    HexPairs (bytes.flatMap hexByte) bytes := by
  induction bytes with
  | nil => exact .done
  | cons byte bytes ih =>
      have below := byte.toNat_lt
      have high : toDigit16 (hexDigit (byte.toNat / 16)) = some (byte.toNat / 16) :=
        toDigit16_hexDigit (by omega)
      have low : toDigit16 (hexDigit (byte.toNat % 16)) = some (byte.toNat % 16) :=
        toDigit16_hexDigit (by omega)
      have same : UInt8.ofNat (16 * (byte.toNat / 16) + byte.toNat % 16) = byte := by
        rw [show 16 * (byte.toNat / 16) + byte.toNat % 16 = byte.toNat by omega]
        exact UInt8.ofNat_toNat
      have pairs := HexPairs.pair high low ih
      rw [same] at pairs
      exact pairs

/-- What is encoded is decoded. -/
theorem decodeHex_encodeHex (bytes : List UInt8) :
    decodeHex (WasmAttestor.encodeHex bytes) = some (.ok bytes) := by
  apply (decodeHex_eq_ok_iff _ _).mpr
  rw [WasmAttestor.encodeHex, String.toList_ofList]
  exact (hexPairs_iff.mp (hexPairs_hexByte bytes)).1

/-- The announcement, as far as the contract manager looks at it. -/
def seen (announcement : WasmAttestor.OracleAnnouncement) : OracleAnnouncement :=
  ⟨announcement.oraclePublicKey, announcement.oracleEvent.eventId⟩

/-- The client reads the messages that the attestor writes. -/
structure ReadsMessagesOf (client : AttestorClient) (attestor : WasmAttestor.Attestor) :
    Prop where
  announcement : ∀ announcement,
    client.readAnnouncement (attestor.encodings.encodeAnnouncement announcement) =
      some (seen announcement)
  attestation : ∀ attestation,
    client.readAttestation (attestor.encodings.encodeAttestation attestation) =
      some attestation

/-! ## Reading what an observer shows -/

section Shown

variable {client : AttestorClient} {attestor : WasmAttestor.Attestor} {eventId : String}
  {number : Nat → Option String} {event : WasmAttestor.ApiOracleEvent} {json : Json}

theorem getJson_of_answered (answered : client.respond (client.eventPath eventId) = .ok json) :
    client.getJson (client.eventPath eventId) = .ok json.toValue := by
  unfold getJson
  rw [answered]
  rfl

theorem getAnnouncement_of_shown (reads : client.ReadsMessagesOf attestor)
    {announcement : WasmAttestor.OracleAnnouncement}
    (answered : client.respond (client.eventPath eventId) = .ok json)
    (shown : event.toJson number = some json)
    (encoded : event.rustAnnouncement =
      WasmAttestor.encodeHex (attestor.encodings.encodeAnnouncement announcement)) :
    client.getAnnouncement eventId = some (.ok (seen announcement)) := by
  unfold getAnnouncement
  rw [getJson_of_answered answered]
  dsimp only
  rw [(WasmAttestor.ApiOracleEvent.index_toJson shown).1, encoded]
  simp [Json.asStr, decodeHex_encodeHex, reads.announcement]

theorem getAttestation_of_shown (reads : client.ReadsMessagesOf attestor)
    {attestation : OracleAttestation}
    (answered : client.respond (client.eventPath eventId) = .ok json)
    (shown : event.toJson number = some json)
    (encoded : event.rustAttestation =
      some (WasmAttestor.encodeHex (attestor.encodings.encodeAttestation attestation))) :
    client.getAttestation eventId = some (.ok attestation) := by
  unfold getAttestation
  rw [getJson_of_answered answered]
  dsimp only
  rw [(WasmAttestor.ApiOracleEvent.index_toJson shown).2.1, encoded]
  simp [Json.asStr, decodeHex_encodeHex, reads.attestation]

theorem getAttestation_of_unattested
    (answered : client.respond (client.eventPath eventId) = .ok json)
    (shown : event.toJson number = some json) (unattested : event.rustAttestation = none) :
    client.getAttestation eventId =
      some (.error (.oracleError ("missing attestation for event " ++ eventId))) := by
  unfold getAttestation
  rw [getJson_of_answered answered]
  dsimp only
  rw [(WasmAttestor.ApiOracleEvent.index_toJson shown).2.1, unattested]
  rfl

theorem getChain_of_shown {chain : String}
    (answered : client.respond (client.eventPath eventId) = .ok json)
    (shown : event.toJson number = some json) (named : event.chain = some chain) :
    client.getChain eventId = .ok chain := by
  unfold getChain
  rw [getJson_of_answered answered]
  dsimp only
  rw [(WasmAttestor.ApiOracleEvent.index_toJson shown).2.2, named]
  rfl

end Shown

end AttestorClient

namespace WasmAttestor

/-- What is shown of a record. -/
theorem parseDatabaseEntry_shows {attestor : Attestor} {texts : EventTexts} {text : String}
    {event : ApiOracleEvent} {value : DbValue}
    (parsed : attestor.encodings.fromJson text = .ok value)
    (shown : parseDatabaseEntry attestor texts text = .ok event) :
    event.rustAnnouncement = encodeHex value.announcement ∧
      event.rustAttestation = value.attestation.map encodeHex ∧
      event.outcome = value.outcome ∧ event.chain = value.chain := by
  unfold parseDatabaseEntry at shown
  rw [parsed] at shown
  dsimp only at shown
  cases announced : attestor.encodings.readAnnouncement value.announcement with
  | error error =>
      rw [announced] at shown
      cases shown
  | ok announcement =>
      rw [announced] at shown
      obtain rfl := Except.ok.inj shown
      exact ⟨rfl, rfl, rfl, rfl⟩

end WasmAttestor

end DlcStack
