import DlcStack.DlcContract
import DlcStack.EffectSessions
import DlcStack.StorageApiClient
import DlcStack.TextCodec

/-!
# The attestor

`create_event` and `attest` of the `attestor` crate with `StorageApiConn`, over
the records that the attestor keeps behind the storage API.  Fresh secret nonces,
signatures and the storage requests are effects; signing with a given nonce is
deterministic.  How values become texts and bytes is left to the crates that the
attestor uses.
-/

namespace DlcStack

namespace WasmAttestor

open Program Clients

/-- `[u8; 32]` -/
abbrev SecretKey := Vector UInt8 32

/-! ## Events -/

inductive EventDescriptor where
  | enumEvent (outcomes : List String)
  | digitDecompositionEvent (base : Nat) (isSigned : Bool) (unit : String)
      (precision : Int) (nbDigits : Nat)
  deriving DecidableEq, Repr

structure OracleEvent where
  oracleNonces : List String
  eventMaturityEpoch : Nat
  eventDescriptor : EventDescriptor
  eventId : String
  deriving DecidableEq, Repr

structure OracleAnnouncement where
  announcementSignature : String
  oraclePublicKey : PublicKey
  oracleEvent : OracleEvent
  deriving DecidableEq, Repr

/-- The record of an event. -/
structure DbValue where
  outstandingSkNonces : Option (List SecretKey)
  announcement : List UInt8
  attestation : Option (List UInt8)
  outcome : Option Nat
  uuid : String
  chain : Option String
  deriving DecidableEq

/-- How values are written as bytes and texts: messages by `dlc_messages`, records
by `serde_json`, and contents in base64. -/
structure Encodings where
  encodeAnnouncement : OracleAnnouncement → List UInt8
  readAnnouncement : List UInt8 → Except String OracleAnnouncement
  encodeAttestation : OracleAttestation → List UInt8
  toJson : DbValue → String
  fromJson : String → Except String DbValue
  base64Encode : String → String
  base64Decode : String → Except String String

/-- What is read is what was written. -/
structure Encodings.RoundTrip (encodings : Encodings) : Prop where
  announcement : ∀ announcement, encodings.readAnnouncement
    (encodings.encodeAnnouncement announcement) = .ok announcement
  json : ∀ value, encodings.fromJson (encodings.toJson value) = .ok value
  base64 : ∀ text, encodings.base64Decode (encodings.base64Encode text) = .ok text

/-- The content of the record with this value. -/
def Encodings.content (encodings : Encodings) (value : DbValue) : String :=
  encodings.base64Encode (encodings.toJson value)

/-- The value in the content of a record. -/
def Encodings.value? (encodings : Encodings) (content : String) : Option DbValue :=
  match encodings.base64Decode content with
  | .ok text => (encodings.fromJson text).toOption
  | .error _ => none

theorem Encodings.RoundTrip.value?_content {encodings : Encodings}
    (roundTrip : encodings.RoundTrip) (value : DbValue) :
    encodings.value? (encodings.content value) = some value := by
  simp [Encodings.value?, Encodings.content, roundTrip.base64, roundTrip.json,
    Except.toOption]

inductive OracleError where
  | storageApiError (error : ApiError)
  | base64DecodeError (text : String)
  deriving DecidableEq, Repr

/-- An attestor: the key under which its events are stored, its signing key and how
it signs with a given nonce, and the formats and texts of the crates it uses. -/
structure Attestor where
  publicKey : String
  oraclePublicKey : PublicKey
  schnorrPublicKey : SecretKey → String
  schnorrsigSignWithNonce : String → SecretKey → String
  encodings : Encodings
  /-- `OffsetDateTime::parse`, as seconds since 1970. -/
  parseRfc3339 : String → Option Int
  /-- `{:?}` -/
  debugError : OracleError → String

/-! ## Effects -/

inductive AttestorRequest where
  /-- `SecretKey::new(&mut thread_rng())` -/
  | newSecretKey
  /-- `secp.sign_schnorr` over the bytes of the event -/
  | signSchnorr (event : OracleEvent)
  /-- `schnorrsig_sign_with_nonce` -/
  | schnorrsigSignWithNonce (message : String) (nonce : SecretKey)
  | api (request : ApiRequest)
  deriving DecidableEq

abbrev AttestorRequest.Answer : AttestorRequest → Type
  | newSecretKey => SecretKey
  | signSchnorr _ => String
  | schnorrsigSignWithNonce _ _ => String
  | api request => request.Answer

abbrev AttestorProgram := Program AttestorRequest AttestorRequest.Answer

/-- The storage database, and the secret keys drawn so far, the latest first. -/
structure AttestorState where
  db : Storage.Database
  drawn : List SecretKey
  deriving DecidableEq

abbrev AttestorStep := Step AttestorState AttestorRequest AttestorRequest.Answer

/-- An operation of the storage client. -/
def storage {α : Type} (operation : StorageApiClient α) :
    ExceptT OracleError AttestorProgram α :=
  ExceptT.adapt .storageApiError
    (ExceptT.mk (operation.run.relabel AttestorRequest.api fun _ => id))

/-! ## `StorageApiConn` -/

/-- `insert` -/
def insert (attestor : Attestor) (eventId newEvent : String) :
    ExceptT OracleError AttestorProgram (Option String) := do
  let newContent := attestor.encodings.base64Encode newEvent
  let event ← storage (StorageApiClient.getEvent attestor.publicKey eventId)
  if event.isSome then
    let _ ← storage (StorageApiClient.updateEvent
      ⟨eventId, newContent, attestor.publicKey⟩)
    return some newEvent
  else
    let _ ← storage (StorageApiClient.createEvent
      ⟨eventId, newContent, attestor.publicKey⟩)
    return some newEvent

/-- `get` -/
def get (attestor : Attestor) (eventId : String) :
    ExceptT OracleError AttestorProgram (Option String) := do
  match ← storage (StorageApiClient.getEvent attestor.publicKey eventId) with
  | some event =>
      match attestor.encodings.base64Decode event.content with
      | .ok res => return some res
      | .error error => throw (.base64DecodeError error)
  | none => return none

/-! ## Announcements -/

/-- The descriptor of every event that the attestor creates. -/
def eventDescriptor : EventDescriptor :=
  .digitDecompositionEvent 2 false "BTCUSD" 0 14

/-- `generate_nonces_for_event`, where a panic counts as an error. -/
def generateNoncesForEvent (attestor : Attestor) :
    EventDescriptor → ExceptT String AttestorProgram (List String × List SecretKey)
  | .digitDecompositionEvent _ _ _ _ nbDigits => do
      let privNonces ← ExceptT.lift
        ((List.range nbDigits).mapM fun _ => perform AttestorRequest.newSecretKey)
      return (privNonces.map attestor.schnorrPublicKey, privNonces)
  | .enumEvent _ => throw "explicit panic"

/-- `build_announcement` -/
def buildAnnouncement (attestor : Attestor) (maturation : Int) (eventId : String) :
    ExceptT String AttestorProgram (OracleAnnouncement × List SecretKey) := do
  let (oracleNonces, skNonces) ← generateNoncesForEvent attestor eventDescriptor
  if 0 ≤ maturation ∧ maturation < 2 ^ 32 then
    let oracleEvent : OracleEvent :=
      ⟨oracleNonces, maturation.toNat, eventDescriptor, eventId⟩
    let sig ← ExceptT.lift (perform (AttestorRequest.signSchnorr oracleEvent))
    return (⟨sig, attestor.oraclePublicKey, oracleEvent⟩, skNonces)
  else
    throw "[WASM-ATTESTOR] Failed to convert maturation to event_maturity_epoch"

/-- `create_event` -/
def createEvent (attestor : Attestor) (uuid maturation chain : String) :
    ExceptT String AttestorProgram Unit :=
  match attestor.parseRfc3339 maturation with
  | none => throw "Unable to parse maturation time"
  | some maturation => do
      let (announcement, outstandingSkNonces) ←
        buildAnnouncement attestor maturation uuid
      let dbValue : DbValue := ⟨some outstandingSkNonces,
        attestor.encodings.encodeAnnouncement announcement, none, none, uuid, some chain⟩
      match ← ExceptT.lift
          (insert attestor uuid (attestor.encodings.toJson dbValue)).run with
      | .ok (some _) => return ()
      | _ => throw "Failed to create event"

/-! ## Attestations -/

/-- `format!("{:0width$b}", outcome, width)`, character by character. -/
def binaryDigits (width outcome : Nat) : List String :=
  let digits := Nat.toDigits 2 outcome
  (List.replicate (width - digits.length) '0' ++ digits).map String.singleton

/-- `build_attestation` -/
def buildAttestation (attestor : Attestor) (outstandingSkNonces : List SecretKey)
    (outcomes : List String) : AttestorProgram OracleAttestation := do
  let signatures ← (outcomes.zip outstandingSkNonces).mapM fun (message, nonce) =>
    perform (AttestorRequest.schnorrsigSignWithNonce message nonce)
  return ⟨attestor.oraclePublicKey, signatures, outcomes⟩

/-- The number of digits of an event, unless it is of another kind. -/
def EventDescriptor.nbDigits? : EventDescriptor → Option Nat
  | .digitDecompositionEvent _ _ _ _ nbDigits => some nbDigits
  | .enumEvent _ => none

/-- `attest`; a failed update is only logged. -/
def attest (attestor : Attestor) (uuid : String) (outcome : Nat) :
    ExceptT String AttestorProgram Unit := do
  match ← ExceptT.lift (get attestor uuid).run with
  | .error error =>
      throw ("[WASM-ATTESTOR] Error retrieving event from StorageAPI: " ++
        attestor.debugError error)
  | .ok none => throw ("[WASM-ATTESTOR] Event missing in StorageAPI with uuid: " ++ uuid)
  | .ok (some eventVec) =>
  match attestor.encodings.fromJson eventVec with
  | .error error =>
      throw ("[WASM-ATTESTOR] Error deserializing event from StorageAPI: " ++ error)
  | .ok event =>
  match event.outstandingSkNonces with
  | none => throw "Error: event is None"
  | some outstandingSkNonces =>
  match attestor.encodings.readAnnouncement event.announcement with
  | .error error =>
      throw ("[WASM-ATTESTOR] Error reading announcement from StorageAPI: " ++ error)
  | .ok announcement =>
  match announcement.oracleEvent.eventDescriptor.nbDigits? with
  | none =>
      throw "oracle event with uuid Got an unexpected EventDescriptor type! not found"
  | some numDigitsToSign =>
      let outcomes := binaryDigits numDigitsToSign outcome
      let attestation ← ExceptT.lift
        (buildAttestation attestor outstandingSkNonces outcomes)
      let newEvent := attestor.encodings.toJson
        { event with
          outcome := some outcome
          attestation := some (attestor.encodings.encodeAttestation attestation) }
      let _ ← ExceptT.lift (insert attestor uuid newEvent).run
      return ()

/-! ## The world of an attestor -/

/-- The storage API answers. -/
def Replied : (request : ApiRequest) → request.Answer → Prop
  | .requestNonce, answer => ∃ nonce, answer = .ok nonce
  | .send _ _, answer => ∃ res, answer = .ok res

/-- Nonces are drawn and announcements signed in any way; signing with a nonce is
the attestor's function.  Storage requests and their replies may be lost, unless
the network is reliable. -/
def World (attestor : Attestor) (lossy : Prop) :
    Environment AttestorState AttestorRequest AttestorRequest.Answer
  | before, .newSecretKey, answer, after => after = ⟨before.db, answer :: before.drawn⟩
  | before, .signSchnorr _, _, after => after = before
  | before, .schnorrsigSignWithNonce message nonce, answer, after =>
      answer = attestor.schnorrsigSignWithNonce message nonce ∧ after = before
  | before, .api request, answer, after =>
      Network before.db request answer after.db ∧ after.drawn = before.drawn ∧
        (lossy ∨ Replied request answer)

/-- The two operations that observers call. -/
inductive AttestorCall where
  | createEvent (uuid maturation chain : String)
  | attest (uuid : String) (outcome : Nat)
  deriving DecidableEq, Repr

def AttestorCall.uuid : AttestorCall → String
  | createEvent uuid _ _ => uuid
  | attest uuid _ => uuid

def AttestorCall.run (attestor : Attestor) :
    AttestorCall → ExceptT String AttestorProgram Unit
  | createEvent uuid maturation chain => WasmAttestor.createEvent attestor uuid maturation chain
  | attest uuid outcome => WasmAttestor.attest attestor uuid outcome

/-! ## An attestor to run -/

/-- A reliable world that draws a new key each time. -/
def serve (attestor : Attestor) :
    Responder AttestorState AttestorRequest AttestorRequest.Answer :=
  fun state request =>
    match request with
    | .newSecretKey =>
        let key := Vector.replicate 32 (UInt8.ofNat state.drawn.length)
        (key, ⟨state.db, key :: state.drawn⟩)
    | .signSchnorr _ => ("signature", state)
    | .schnorrsigSignWithNonce message nonce =>
        (attestor.schnorrsigSignWithNonce message nonce, state)
    | .api .requestNonce => (.ok "nonce", state)
    | .api (.send _ call) =>
        (.ok (call.respond state.db).1, ⟨(call.respond state.db).2, state.drawn⟩)

theorem world_serve (attestor : Attestor) (lossy : Prop) (state : AttestorState)
    (request : AttestorRequest) :
    World attestor lossy state request (serve attestor state request).1
      (serve attestor state request).2 := by
  cases request with
  | newSecretKey => rfl
  | signSchnorr event => rfl
  | schnorrsigSignWithNonce message nonce => exact ⟨rfl, rfl⟩
  | api request =>
      cases request with
      | requestNonce => exact ⟨rfl, rfl, .inr ⟨_, rfl⟩⟩
      | send nonce call => exact ⟨.inl ⟨rfl, rfl⟩, rfl, .inr ⟨_, rfl⟩⟩

def secretKeyCodec : TextCodec SecretKey := TextCodec.uint8.vector

def eventDescriptorCodec : TextCodec EventDescriptor :=
  ((TextCodec.string.list).sum (TextCodec.nat.pair (TextCodec.bool.pair
    (TextCodec.string.pair (TextCodec.int.pair TextCodec.nat))))).via
    (fun
      | .enumEvent outcomes => .inl outcomes
      | .digitDecompositionEvent base isSigned unit precision nbDigits =>
          .inr (base, isSigned, unit, precision, nbDigits))
    (fun
      | .inl outcomes => .enumEvent outcomes
      | .inr (base, isSigned, unit, precision, nbDigits) =>
          .digitDecompositionEvent base isSigned unit precision nbDigits)
    (fun descriptor => by cases descriptor <;> rfl)

def oracleEventCodec : TextCodec OracleEvent :=
  (TextCodec.string.list.pair (TextCodec.nat.pair
    (eventDescriptorCodec.pair TextCodec.string))).via
    (fun event => (event.oracleNonces, event.eventMaturityEpoch, event.eventDescriptor,
      event.eventId))
    (fun (oracleNonces, eventMaturityEpoch, eventDescriptor, eventId) =>
      ⟨oracleNonces, eventMaturityEpoch, eventDescriptor, eventId⟩)
    (fun _ => rfl)

def oracleAnnouncementCodec : TextCodec OracleAnnouncement :=
  (TextCodec.string.pair (TextCodec.string.pair oracleEventCodec)).via
    (fun announcement => (announcement.announcementSignature,
      announcement.oraclePublicKey, announcement.oracleEvent))
    (fun (announcementSignature, oraclePublicKey, oracleEvent) =>
      ⟨announcementSignature, oraclePublicKey, oracleEvent⟩)
    (fun _ => rfl)

def dbValueCodec : TextCodec DbValue :=
  (secretKeyCodec.list.option.pair (TextCodec.uint8.list.pair
    (TextCodec.uint8.list.option.pair (TextCodec.nat.option.pair
      (TextCodec.string.pair TextCodec.string.option))))).via
    (fun value => (value.outstandingSkNonces, value.announcement, value.attestation,
      value.outcome, value.uuid, value.chain))
    (fun (outstandingSkNonces, announcement, attestation, outcome, uuid, chain) =>
      ⟨outstandingSkNonces, announcement, attestation, outcome, uuid, chain⟩)
    (fun _ => rfl)

/-- Formats that write some values by their place in a table. -/
def sampleEncodings (announcements : List OracleAnnouncement) (values : List DbValue) :
    Encodings where
  encodeAnnouncement := (oracleAnnouncementCodec.short announcements).toBytes
  readAnnouncement := (oracleAnnouncementCodec.short announcements).readBytes
  encodeAttestation attestation :=
    (attestation.outcomes.flatMap String.toList).flatMap TextCodec.bytesOfChar
  toJson := (dbValueCodec.short values).toText
  fromJson := (dbValueCodec.short values).readText
  base64Encode := id
  base64Decode := .ok

theorem sampleEncodings_roundTrip (announcements : List OracleAnnouncement)
    (values : List DbValue) : (sampleEncodings announcements values).RoundTrip where
  announcement announcement := by simp [sampleEncodings]
  json value := by simp [sampleEncodings]
  base64 _ := rfl

/-- The nonces that are drawn after so many others. -/
def sampleNonces (earlier : Nat) : List SecretKey :=
  (List.range 14).map fun index => Vector.replicate 32 (UInt8.ofNat (earlier + index))

def samplePublicKey (nonce : SecretKey) : String :=
  String.singleton (Char.ofNat (nonce.toList.getD 0 0).toNat)

def sampleAnnouncement (earlier : Nat) : OracleAnnouncement :=
  ⟨"signature", "oracle",
    ⟨(sampleNonces earlier).map samplePublicKey, 0, eventDescriptor, "uuid"⟩⟩

/-- The record of an event, as it is created. -/
def sampleCreated (index earlier : Nat) : DbValue where
  outstandingSkNonces := some (sampleNonces earlier)
  announcement := ('#' :: TextCodec.nat.encode index).flatMap TextCodec.bytesOfChar
  attestation := none
  outcome := none
  uuid := "uuid"
  chain := some "chain"

/-- The record after it was attested. -/
def sampleAttested (value : DbValue) (outcome : Nat) : DbValue :=
  { value with
    attestation := some (((binaryDigits 14 outcome).flatMap String.toList).flatMap
      TextCodec.bytesOfChar)
    outcome := some outcome }

def sampleAttestor : Attestor where
  publicKey := "attestor"
  oraclePublicKey := "oracle"
  schnorrPublicKey := samplePublicKey
  schnorrsigSignWithNonce message _ := "signed " ++ message
  encodings := sampleEncodings [sampleAnnouncement 0, sampleAnnouncement 14]
    [sampleCreated 0 0, sampleAttested (sampleCreated 0 0) 0,
      sampleAttested (sampleCreated 0 0) 1, sampleCreated 1 14]
  parseRfc3339 _ := some 0
  debugError _ := "error"

def sampleStart : AttestorState := ⟨.empty, []⟩

/-- Calls of the attestor one after the other. -/
def sampleCalls (calls : List AttestorCall) :
    List (Session AttestorCall AttestorState AttestorRequest AttestorRequest.Answer
      (Except String Unit)) × AttestorState :=
  evalEach (serve sampleAttestor) (fun call => (call.run sampleAttestor).run) calls
    sampleStart

theorem runs_sampleCalls (calls : List AttestorCall) (lossy : Prop) :
    RunsEach (World sampleAttestor lossy)
      (fun call : AttestorCall => (call.run sampleAttestor).run) sampleStart
      (sampleCalls calls).1 (sampleCalls calls).2 :=
  runsEach_evalEach _ (world_serve sampleAttestor lossy) _ _ _

end WasmAttestor

end DlcStack
