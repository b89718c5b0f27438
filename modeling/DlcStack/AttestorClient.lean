import DlcStack.DlcContract
import DlcStack.HexDecoding
import DlcStack.StorageRequest

/-!
# The client of an attestor

`get_announcement` and `get_attestation` ask an attestor for an event and read the
answer: a field of the JSON, hexadecimal digits in it, and in these a message.  The two
treat a failure to decode differently, and neither returns where the message cannot be
read.
-/

namespace DlcStack

open Storage (Json)

/-- A client: what the attestor answers at each path, how errors are printed, and the
messages that `lightning` reads from bytes, where it can. -/
structure AttestorClient where
  host : String
  respond : String → Except String Json
  display : DlcError → String
  readAnnouncement : List UInt8 → Option OracleAnnouncement
  readAttestation : List UInt8 → Option OracleAttestation

namespace AttestorClient

/-- `announcement_path` and `attestation_path` -/
def eventPath (client : AttestorClient) (eventId : String) : String :=
  client.host ++ "event/" ++ eventId

/-- `get_json` -/
def getJson (client : AttestorClient) (path : String) : Except DlcError Json :=
  ((client.respond path).map Json.toValue).mapError .oracleError

/-- `get_announcement`; there is no answer after a panic. -/
def getAnnouncement (client : AttestorClient) (eventId : String) :
    Option (Except DlcError OracleAnnouncement) :=
  match client.getJson (client.eventPath eventId) with
  | .error error =>
      some (.error (.oracleError
        ("Error getting announcement " ++ eventId ++ ": " ++ client.display error)))
  | .ok json =>
      match (json.index "rust_announcement").asStr with
      | none => some (.error (.oracleError ("missing announcement for event " ++ eventId)))
      | some encodedHexAnnouncement =>
          (decodeHex encodedHexAnnouncement).bind fun
            | .error error =>
                some (.error (.oracleError ("Error decoding hex: " ++ error.display)))
            | .ok buffer => (client.readAnnouncement buffer).map .ok

/-- `get_attestation`; there is no answer after a panic. -/
def getAttestation (client : AttestorClient) (eventId : String) :
    Option (Except DlcError OracleAttestation) :=
  match client.getJson (client.eventPath eventId) with
  | .error error => some (.error error)
  | .ok json =>
      match (json.index "rust_attestation").asStr with
      | none => some (.error (.oracleError ("missing attestation for event " ++ eventId)))
      | some encodedHexAttestation =>
          (decodeHex encodedHexAttestation).bind fun
            | .error _ => none
            | .ok buffer => (client.readAttestation buffer).map .ok

/-- The answer about an event has the text in the field. -/
def Answered (client : AttestorClient) (eventId field text : String) : Prop :=
  ∃ json, client.getJson (client.eventPath eventId) = .ok json ∧
    (json.index field).asStr = some text

/-- The text is refused by the decoder, or spells a message. -/
def RefusesOrReads {α : Type} (read : List UInt8 → Option α) (text : String) : Prop :=
  (text.utf8ByteSize % 2 = 0 → ¬ Slips text.toList) ∧
    ∀ bytes, Reads text.toList bytes → ∃ message, read bytes = some message

/-- The text spells a message. -/
def ReadsMessage {α : Type} (read : List UInt8 → Option α) (text : String) : Prop :=
  ∃ bytes, Reads text.toList bytes ∧ ∃ message, read bytes = some message

/-- What the decoder returns, where it is not a panic. -/
theorem decodeHex_cases (text : String) :
    (decodeHex text = none ∧ text.utf8ByteSize % 2 = 0 ∧ Slips text.toList) ∨
      ∃ result, decodeHex text = some result ∧
        (text.utf8ByteSize % 2 = 0 → ¬ Slips text.toList) := by
  cases decoded : decodeHex text with
  | none => exact .inl ⟨rfl, (decodeHex_eq_none_iff text).mp decoded⟩
  | some result =>
      refine .inr ⟨result, rfl, fun even slips => ?_⟩
      rw [(decodeHex_eq_none_iff text).mpr ⟨even, slips⟩] at decoded
      cases decoded

/-- An announcement or an error is returned exactly when the attestor's text, if there
is one, is refused or spells an announcement. -/
theorem getAnnouncement_returns_iff (client : AttestorClient) (eventId : String) :
    (∃ result, client.getAnnouncement eventId = some result) ↔
      ∀ text, client.Answered eventId "rust_announcement" text →
        RefusesOrReads client.readAnnouncement text := by
  unfold getAnnouncement Answered
  cases client.getJson (client.eventPath eventId) with
  | error error => simp
  | ok json =>
      cases field : (json.index "rust_announcement").asStr with
      | none => simp [field]
      | some text =>
          simp only [Except.ok.injEq, exists_eq_left', field, Option.some.injEq, forall_eq']
          unfold RefusesOrReads
          simp only [← decodeHex_eq_ok_iff]
          rcases decodeHex_cases text with ⟨panics, even, slips⟩ | ⟨result, decoded, noSlip⟩
          · simp [panics, even, slips]
          · cases result with
            | error error => simpa [decoded] using noSlip
            | ok buffer =>
                cases message : client.readAnnouncement buffer with
                | none => simp [decoded, message]
                | some announcement => simpa [decoded, message] using noSlip

/-- An attestation or an error is returned exactly when the attestor's text, if there
is one, spells an attestation. -/
theorem getAttestation_returns_iff (client : AttestorClient) (eventId : String) :
    (∃ result, client.getAttestation eventId = some result) ↔
      ∀ text, client.Answered eventId "rust_attestation" text →
        ReadsMessage client.readAttestation text := by
  unfold getAttestation Answered
  cases client.getJson (client.eventPath eventId) with
  | error error => simp
  | ok json =>
      cases field : (json.index "rust_attestation").asStr with
      | none => simp [field]
      | some text =>
          simp only [Except.ok.injEq, exists_eq_left', field, Option.some.injEq, forall_eq']
          unfold ReadsMessage
          simp only [← decodeHex_eq_ok_iff]
          cases decoded : decodeHex text with
          | none => simp
          | some result =>
              cases result with
              | error error => simp
              | ok buffer =>
                  cases message : client.readAttestation buffer <;> simp [message]

/-- Which answers of an attestor the client gets over without a panic. -/
theorem client_returns_iff (client : AttestorClient) (eventId : String) :
    ((∃ result, client.getAnnouncement eventId = some result) ↔
      ∀ text, client.Answered eventId "rust_announcement" text →
        RefusesOrReads client.readAnnouncement text) ∧
    ((∃ result, client.getAttestation eventId = some result) ↔
      ∀ text, client.Answered eventId "rust_attestation" text →
        ReadsMessage client.readAttestation text) :=
  ⟨getAnnouncement_returns_iff client eventId, getAttestation_returns_iff client eventId⟩

/-- An attestor that answers with one text in the fields of every event, none of which
spells a message. -/
def sampleClient (text : String) : AttestorClient where
  host := "http://attestor/"
  respond _ :=
    .ok (.object [("rust_announcement", .string text), ("rust_attestation", .string text)])
  display _ := "error"
  readAnnouncement _ := none
  readAttestation _ := none

/-- An attestation that is not hexadecimal is a panic. -/
theorem client_panics :
    ¬ ∀ (client : AttestorClient) (eventId : String),
      (∃ result, client.getAnnouncement eventId = some result) ∧
        ∃ result, client.getAttestation eventId = some result := by
  intro always
  have panics : (sampleClient "none").getAttestation "event" = none := by
    decide +kernel
  obtain ⟨-, result, returned⟩ := always (sampleClient "none") "event"
  rw [panics] at returned
  cases returned

end AttestorClient

end DlcStack
