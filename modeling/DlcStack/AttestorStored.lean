import DlcStack.AttestorNonces
import DlcStack.EffectProjection

/-!
# What is stored when `attest` returns

`attest` sets the record of its event as its last step, and a failure of that step
is only logged.  So it may return `Ok` with nothing stored.
-/

namespace DlcStack

namespace WasmAttestor

open Program Clients

/-- The request was made and took its effect, whether its reply was lost or not. -/
def TookEffect (sent : Storage.Call) (steps : List AttestorStep) : Prop :=
  ∃ step ∈ steps, ∃ nonce, step.request = .api (.send nonce sent) ∧
    step.after.db = (sent.respond step.before.db).2

/-- The record of the event was set. -/
def SetsEvent (attestor : Attestor) (uuid : String) (steps : List AttestorStep) : Prop :=
  ∃ content, TookEffect (.updateEvent ⟨uuid, content, attestor.publicKey⟩) steps

/-- An event was read that can be attested: it has its nonces, and its announcement is
legible and one of digits. -/
def ReadsAttestable (attestor : Attestor) (uuid : String) (steps : List AttestorStep) :
    Prop :=
  ∃ row value nonces announcement nbDigits,
    ReadRow attestor uuid steps row ∧
    attestor.encodings.value? row.content = some value ∧
    value.outstandingSkNonces = some nonces ∧
    attestor.encodings.readAnnouncement value.announcement = .ok announcement ∧
    announcement.oracleEvent.eventDescriptor.nbDigits? = some nbDigits

/-- The value is that of an event with the attestation for this outcome. -/
def AttestedFor (attestor : Attestor) (outcome : Nat) (value : DbValue) : Prop :=
  ∃ nonces announcement nbDigits,
    value.outstandingSkNonces = some nonces ∧
    attestor.encodings.readAnnouncement value.announcement = .ok announcement ∧
    announcement.oracleEvent.eventDescriptor.nbDigits? = some nbDigits ∧
    value.outcome = some outcome ∧
    value.attestation = some (attestor.encodings.encodeAttestation
      (attestationOf attestor nonces (binaryDigits nbDigits outcome)))

/-- The event is stored with the attestation for this outcome. -/
def StoredFor (attestor : Attestor) (db : Storage.Database) (uuid : String)
    (outcome : Nat) : Prop :=
  ∃ value, storedValue? attestor db uuid = some value ∧ AttestedFor attestor outcome value

/-! ## What `get_event` returns -/

structure ApiOracleEvent where
  eventId : String
  uuid : String
  rustAnnouncementJson : String
  rustAnnouncement : String
  rustAttestationJson : Option String
  rustAttestation : Option String
  maturation : String
  outcome : Option Nat
  chain : Option String
  deriving DecidableEq, Repr

/-- How the crates read and print what `get_event` shows. -/
structure EventTexts where
  announcementJson : OracleAnnouncement → String
  readAttestation : List UInt8 → Option OracleAttestation
  /-- `{:?}` -/
  debugAttestation : OracleAttestation → String

/-- `encode_hex` -/
def encodeHex (bytes : List UInt8) : String :=
  String.ofList (bytes.flatMap hexByte)

/-- `parse_database_entry` -/
def parseDatabaseEntry (attestor : Attestor) (texts : EventTexts) (event : String) :
    Except String ApiOracleEvent :=
  match attestor.encodings.fromJson event with
  | .error _ => .error "[WASM-ATTESTOR] Error parsing event from string"
  | .ok event =>
      match attestor.encodings.readAnnouncement event.announcement with
      | .error _ => .error "[WASM-ATTESTOR] Error reading OracleAnnouncement"
      | .ok announcement => .ok
          { eventId := announcement.oracleEvent.eventId
            uuid := event.uuid
            rustAnnouncementJson := texts.announcementJson announcement
            rustAnnouncement := encodeHex event.announcement
            rustAttestationJson := event.attestation.map fun bytes =>
              ((texts.readAttestation bytes).map texts.debugAttestation).getD
                "[WASM-ATTESTOR] Error decoding attestation"
            rustAttestation := event.attestation.map encodeHex
            maturation := announcement.oracleEvent.eventMaturityEpoch.repr
            outcome := event.outcome
            chain := event.chain }

/-- `get_event`, where `JsValue::NULL` is `none`. -/
def getEvent (attestor : Attestor) (texts : EventTexts) (uuid : String) :
    ExceptT String AttestorProgram (Option ApiOracleEvent) := do
  match ← ExceptT.lift (get attestor uuid).run with
  | .error _ => throw "[WASM-ATTESTOR] Error getting event"
  | .ok none => return none
  | .ok (some event) =>
      match parseDatabaseEntry attestor texts event with
      | .ok parsedEvent => return some parsedEvent
      | .error _ => throw "[WASM-ATTESTOR] Error parsing database entry"

/-- The attestation for this outcome is what `get_event` returns next. -/
def ReturnsFor (attestor : Attestor) (texts : EventTexts) (state : AttestorState)
    (uuid : String) (outcome : Nat) : Prop :=
  ∀ steps result final,
    Runs (World attestor False) (getEvent attestor texts uuid).run state steps result final →
      ∃ event nonces nbDigits, result = .ok (some event) ∧ event.outcome = some outcome ∧
        event.rustAttestation = some (encodeHex (attestor.encodings.encodeAttestation
          (attestationOf attestor nonces (binaryDigits nbDigits outcome))))

/-! ## Runs over any network -/

/-- Steps that set no record. -/
def SetsNone (steps : List AttestorStep) : Prop :=
  ∀ step ∈ steps, ∀ nonce event, step.request ≠ .api (.send nonce (.updateEvent event))

theorem SetsNone.append {front back : List AttestorStep} (first : SetsNone front)
    (second : SetsNone back) : SetsNone (front ++ back) := by
  intro step member
  rcases List.mem_append.mp member with member | member
  · exact first step member
  · exact second step member

theorem SetsNone.not_setsEvent {attestor : Attestor} {uuid : String}
    {steps : List AttestorStep} (none : SetsNone steps) :
    ¬ SetsEvent attestor uuid steps := by
  rintro ⟨content, step, member, nonce, request, -⟩
  exact none step member nonce _ request

theorem SetsNone.setsEvent_append {attestor : Attestor} {uuid : String}
    {front back : List AttestorStep} (none : SetsNone front) :
    SetsEvent attestor uuid (front ++ back) ↔ SetsEvent attestor uuid back := by
  constructor
  · rintro ⟨content, step, member, nonce, request, effect⟩
    rcases List.mem_append.mp member with member | member
    · exact absurd request (none step member nonce _)
    · exact ⟨content, step, member, nonce, request, effect⟩
  · rintro ⟨content, step, member, effect⟩
    exact ⟨content, step, List.mem_append_right _ member, effect⟩

theorem ReadsAttestable.append {attestor : Attestor} {uuid : String}
    {steps : List AttestorStep} (reads : ReadsAttestable attestor uuid steps)
    (later : List AttestorStep) : ReadsAttestable attestor uuid (steps ++ later) := by
  obtain ⟨row, value, nonces, announcement, nbDigits, read, rest⟩ := reads
  exact ⟨row, value, nonces, announcement, nbDigits, read.append later, rest⟩

section Runs

variable {attestor : Attestor} {lossy : Prop} {start final : AttestorState}
  {steps : List AttestorStep}

theorem runs_getEvent_cases {uuid : String}
    {result : Except OracleError (Option Storage.Event)}
    (run : Runs (World attestor lossy)
      (storage (StorageApiClient.getEvent attestor.publicKey uuid)).run start steps result
      final) :
    final = start ∧ SetsNone steps ∧
      (∀ row, ReadRow attestor uuid steps row ↔ result = .ok (some row)) ∧
      ∀ event, result = .ok event →
        event = start.db.events.find? (attestor.publicKey, uuid) := by
  have answered : Storage.Call.respond start.db
      (.getEvents ⟨attestor.publicKey, some uuid⟩) =
        (⟨.ok, .events (start.db.events.find? (attestor.publicKey, uuid)).toList⟩,
          start.db) := by
    simp only [Storage.Call.respond, Storage.Handlers.getEvents,
      Storage.Database.getEvents_one]
  rw [getEvent_eq] at run
  obtain ⟨error, rfl, rfl, rfl, -⟩ | ⟨nonce, answer, rfl, delivered, sameDrawn, rfl, -⟩ :=
    runs_storage_cases run
  · refine ⟨rfl, ?_, fun row => ⟨?_, by simp⟩, by simp⟩
    · intro step member nonce event
      obtain rfl := List.mem_singleton.mp member
      simp
    · rintro ⟨before, nonce, status, rows, after, member⟩
      simp at member
  · have sets : SetsNone [(⟨start, .api .requestNonce, .ok nonce, start⟩ : AttestorStep),
        ⟨start, .api (.send nonce (.getEvents ⟨attestor.publicKey, some uuid⟩)), answer,
          final⟩] := by
      intro step member nonce event
      simp only [List.mem_cons, List.not_mem_nil, or_false] at member
      rcases member with rfl | rfl <;> simp
    have unchanged : final = start := by
      rcases delivered with ⟨-, after⟩ | ⟨-, after | after⟩ <;>
        · cases final
          cases start
          simp_all
    refine ⟨unchanged, sets, ?_⟩
    rcases delivered with ⟨rfl, -⟩ | ⟨⟨error, rfl⟩, -⟩
    · rw [answered]
      cases found : start.db.events.find? (attestor.publicKey, uuid) with
      | none =>
          refine ⟨fun row => ⟨?_, ?_⟩, ?_⟩
          · rintro ⟨before, nonce, status, rows, after, member⟩
            simp at member
          · rintro ⟨⟩
          · rintro event ⟨⟩
            rfl
      | some stored =>
          refine ⟨fun row => ⟨?_, ?_⟩, ?_⟩
          · rintro ⟨before, nonce, status, rows, after, member⟩
            simp at member
            simp [member, Except.bind, StorageApiClient.readEvents, Except.map,
              Except.mapError]
          · rintro ⟨⟩
            exact ⟨_, _, _, _, _, List.mem_cons_of_mem _ (List.mem_singleton_self _)⟩
          · rintro event ⟨⟩
            rfl
    · refine ⟨fun row => ⟨?_, ?_⟩, ?_⟩
      · rintro ⟨before, nonce, status, rows, after, member⟩
        simp at member
      · rintro ⟨⟩
      · rintro event ⟨⟩

theorem runs_get_cases {uuid : String} {result : Except OracleError (Option String)}
    (run : Runs (World attestor lossy) (get attestor uuid).run start steps result final) :
    final = start ∧ SetsNone steps ∧
      (∀ row, ReadRow attestor uuid steps row →
        start.db.events.find? (attestor.publicKey, uuid) = some row) ∧
      ∀ text, result = .ok (some text) ↔ ∃ row, ReadRow attestor uuid steps row ∧
        attestor.encodings.base64Decode row.content = .ok text := by
  rcases runs_run_bind _ _ run with ⟨error, first, rfl⟩ |
    ⟨event, middle, front, back, first, second, rfl⟩
  · obtain ⟨rfl, sets, read, -⟩ := runs_getEvent_cases first
    have none (row : Storage.Event) : ¬ ReadRow attestor uuid steps row := by
      simp [read]
    refine ⟨rfl, sets, fun row isRead => absurd isRead (none row), fun text => ⟨by simp, ?_⟩⟩
    rintro ⟨row, isRead, -⟩
    exact absurd isRead (none row)
  obtain ⟨rfl, sets, read, found⟩ := runs_getEvent_cases first
  have found := found event rfl
  have isStored (row : Storage.Event) (isRead : ReadRow attestor uuid front row) :
      event = some row := Except.ok.inj ((read row).mp isRead)
  have ends : back = [] ∧ final = middle ∧ ∀ text, result = .ok (some text) ↔
      ∃ row, event = some row ∧
        attestor.encodings.base64Decode row.content = .ok text := by
    cases event with
    | none =>
        obtain ⟨rfl, rfl, rfl⟩ := second
        exact ⟨rfl, rfl, by simp⟩
    | some row =>
        dsimp only at second
        cases decoded : attestor.encodings.base64Decode row.content with
        | error error =>
            rw [decoded] at second
            obtain ⟨rfl, rfl, rfl⟩ := second
            exact ⟨rfl, rfl, by simp [decoded]⟩
        | ok res =>
            rw [decoded] at second
            obtain ⟨rfl, rfl, rfl⟩ := second
            exact ⟨rfl, rfl, by simp [decoded]⟩
  obtain ⟨rfl, rfl, returned⟩ := ends
  rw [List.append_nil]
  refine ⟨rfl, sets, fun row isRead => by rw [← found, isStored row isRead], fun text => ?_⟩
  rw [returned]
  constructor
  · rintro ⟨row, rfl, decoded⟩
    exact ⟨row, (read row).mpr rfl, decoded⟩
  · rintro ⟨row, isRead, decoded⟩
    exact ⟨row, isStored row isRead, decoded⟩

/-- Setting a record takes its effect, or nothing happens. -/
theorem runs_updateEvent_cases {event : Storage.UpdateEvent}
    {result : Except OracleError Unit}
    (run : Runs (World attestor lossy) (storage (StorageApiClient.updateEvent event)).run
      start steps result final) :
    TookEffect (.updateEvent event) steps ∧
        final.db = ((Storage.Call.updateEvent event).respond start.db).2 ∨
      (∀ other, ¬ TookEffect (.updateEvent other) steps) ∧ final.db = start.db := by
  obtain ⟨error, rfl, rfl, rfl, -⟩ | ⟨nonce, answer, rfl, delivered, -, rfl, -⟩ :=
    runs_storage_cases run
  · refine .inr ⟨?_, rfl⟩
    rintro other ⟨step, member, nonce, request, -⟩
    obtain rfl := List.mem_singleton.mp member
    cases request
  by_cases took : final.db = ((Storage.Call.updateEvent event).respond start.db).2
  · exact .inl ⟨⟨_, List.mem_cons_of_mem _ (List.mem_singleton_self _), nonce, rfl, took⟩,
      took⟩
  · refine .inr ⟨?_, ?_⟩
    · rintro other ⟨step, member, nonce', request, effect⟩
      simp only [List.mem_cons, List.not_mem_nil, or_false] at member
      rcases member with rfl | rfl
      · cases request
      · cases request
        exact took effect
    · rcases delivered with ⟨-, after⟩ | ⟨-, after | after⟩
      · exact absurd after took
      · exact after
      · exact absurd after took

/-- Inserting over a record sets it, or nothing happens. -/
theorem runs_insert_cases (roundTrip : attestor.encodings.RoundTrip) {uuid : String}
    {value : DbValue} {row : Storage.Event}
    {result : Except OracleError (Option String)}
    (stored : start.db.events.find? (attestor.publicKey, uuid) = some row)
    (run : Runs (World attestor lossy)
      (insert attestor uuid (attestor.encodings.toJson value)).run start steps result
      final) :
    SetsEvent attestor uuid steps ∧ storedValue? attestor final.db uuid = some value ∨
      ¬ SetsEvent attestor uuid steps ∧ final.db = start.db := by
  rcases runs_run_bind _ _ run with ⟨error, first, -⟩ |
    ⟨event, middle, front, back, first, second, rfl⟩
  · obtain ⟨rfl, sets, -, -⟩ := runs_getEvent_cases first
    exact .inr ⟨sets.not_setsEvent, rfl⟩
  obtain ⟨rfl, sets, -, found⟩ := runs_getEvent_cases first
  rw [stored] at found
  obtain rfl := found event rfl
  have update : ∃ ended, Runs (World attestor lossy) (storage (StorageApiClient.updateEvent
      ⟨uuid, attestor.encodings.content value, attestor.publicKey⟩)).run middle back ended
        final := by
    rcases runs_run_bind _ _ second with ⟨error, update, -⟩ |
      ⟨ended, later, front', back', update, ⟨rfl, -, rfl⟩, rfl⟩
    · exact ⟨_, update⟩
    · rw [List.append_nil]
      exact ⟨_, update⟩
  obtain ⟨ended, update⟩ := update
  rcases runs_updateEvent_cases update with ⟨took, after⟩ | ⟨none, after⟩
  · left
    rw [sets.setsEvent_append]
    refine ⟨⟨_, took⟩, ?_⟩
    · rw [after, respond_updateEvent_snd, storedValue?,
        Storage.Database.find?_updateEvent, if_pos rfl, stored]
      exact roundTrip.value?_content value
  · right
    rw [sets.setsEvent_append]
    refine ⟨?_, after⟩
    rintro ⟨content, took⟩
    exact none _ took

/-- A content with a value has a text. -/
theorem text_of_value? {content : String} {value : DbValue}
    (holds : attestor.encodings.value? content = some value) :
    ∃ text, attestor.encodings.base64Decode content = .ok text ∧
      attestor.encodings.fromJson text = .ok value := by
  unfold Encodings.value? at holds
  cases decoded : attestor.encodings.base64Decode content with
  | error error =>
      rw [decoded] at holds
      cases holds
  | ok text =>
      rw [decoded] at holds
      dsimp only at holds
      refine ⟨text, rfl, ?_⟩
      cases parsed : attestor.encodings.fromJson text with
      | error error =>
          rw [parsed] at holds
          cases holds
      | ok other =>
          rw [parsed] at holds
          exact congrArg Except.ok (Option.some.inj holds)

/-- What `get` returns is legible just where a record was read that is. -/
theorem runs_get_value {uuid : String} {result : Except OracleError (Option String)}
    (run : Runs (World attestor lossy) (get attestor uuid).run start steps result final)
    (value : DbValue) :
    (∃ text, result = .ok (some text) ∧ attestor.encodings.fromJson text = .ok value) ↔
      ∃ row, ReadRow attestor uuid steps row ∧
        attestor.encodings.value? row.content = some value := by
  obtain ⟨-, -, -, reads⟩ := runs_get_cases run
  constructor
  · rintro ⟨text, returned, parsed⟩
    obtain ⟨row, read, decoded⟩ := (reads text).mp returned
    exact ⟨row, read, by simp [Encodings.value?, decoded, parsed, Except.toOption]⟩
  · rintro ⟨row, read, holds⟩
    obtain ⟨text, decoded, parsed⟩ := text_of_value? holds
    exact ⟨text, (reads text).mpr ⟨row, read, decoded⟩, parsed⟩

/-- Signing sets no record. -/
private theorem setsNone_sign (pairs : List (String × SecretKey))
    {signatures : List String}
    (run : Runs (World attestor lossy)
      (pairs.mapM fun (message, nonce) =>
        perform (AttestorRequest.schnorrsigSignWithNonce message nonce))
      start steps signatures final) : SetsNone steps := by
  have asks : Asks (fun request => ∀ nonce event,
      request ≠ AttestorRequest.api (.send nonce (.updateEvent event)))
      (pairs.mapM fun (message, nonce) =>
        perform (AttestorRequest.schnorrsigSignWithNonce message nonce) :
          AttestorProgram (List String)) := by
    refine asks_mapM pairs fun pair => ?_
    obtain ⟨message, nonce⟩ := pair
    exact asks_perform (by simp)
  exact asks.of_runs run

/-- A run of `attest` ends with an error before it has changed anything, or has
everything for the attestation and returns `Ok`, whether or not it stores it. -/
theorem runs_attest_cases (roundTrip : attestor.encodings.RoundTrip) {uuid : String}
    {outcome : Nat} {result : Except String Unit}
    (run : Runs (World attestor lossy) (attest attestor uuid outcome).run start steps
      result final) :
    ((∃ error, result = .error error) ∧ final.db = start.db ∧
      ¬ ReadsAttestable attestor uuid steps) ∨
    result = .ok () ∧ ReadsAttestable attestor uuid steps ∧
      ∃ value other, storedValue? attestor start.db uuid = some value ∧
        other.outstandingSkNonces = value.outstandingSkNonces ∧
        other.announcement = value.announcement ∧ AttestedFor attestor outcome other ∧
        (SetsEvent attestor uuid steps ∧ storedValue? attestor final.db uuid = some other ∨
          ¬ SetsEvent attestor uuid steps ∧ final.db = start.db) := by
  obtain ⟨rest, split, attests, fails⟩ := attest_split attestor uuid outcome
  rw [split] at run
  obtain ⟨answer, middle, front, back, first, second, rfl⟩ :=
    (runs_run_lift_bind _ _).mp run
  have legible := runs_get_value first
  obtain ⟨rfl, sets, stored, -⟩ := runs_get_cases first
  by_cases attestable : ∃ text value nonces announcement nbDigits,
      answer = .ok (some text) ∧
        Attestable attestor text value nonces announcement nbDigits
  · right
    obtain ⟨text, value, nonces, announcement, nbDigits, rfl, attestable⟩ := attestable
    obtain ⟨parsed, kept, announced, digits⟩ := attestable
    obtain ⟨row, read, holds⟩ := (legible value).mp ⟨text, rfl, parsed⟩
    have found := stored row read
    have stored : storedValue? attestor middle.db uuid = some value := by
      rw [storedValue?, found, Option.bind_some, holds]
    rw [attests ⟨parsed, kept, announced, digits⟩] at second
    obtain ⟨rfl, signatures, signing, inserted, insertion, sign, insert, rfl⟩ :=
      runs_attestValue second
    have attestable : ReadsAttestable attestor uuid front :=
      ⟨row, value, nonces, announcement, nbDigits, read, holds, kept, announced, digits⟩
    have inserted := runs_insert_cases roundTrip found insert
    rw [sets.setsEvent_append, (setsNone_sign _ sign).setsEvent_append]
    refine ⟨rfl, attestable.append _, value, _, stored, ?_, ?_, ?_, inserted⟩
    · rfl
    · rfl
    · exact ⟨nonces, announcement, nbDigits, kept, announced, digits, rfl, rfl⟩
  · left
    obtain ⟨error, failed⟩ := fails answer attestable
    rw [failed] at second
    obtain ⟨rfl, rfl, rfl⟩ := second
    rw [List.append_nil]
    refine ⟨⟨error, rfl⟩, rfl, ?_⟩
    rintro ⟨row, value, nonces, announcement, nbDigits, read, holds, kept, announced,
      digits⟩
    obtain ⟨text, returned, parsed⟩ := (legible value).mpr ⟨row, read, holds⟩
    exact attestable ⟨text, value, nonces, announcement, nbDigits, returned,
      parsed, kept, announced, digits⟩

/-- The database is changed only by setting the event. -/
theorem setsEvent_of_changes (roundTrip : attestor.encodings.RoundTrip) {uuid : String}
    {outcome : Nat} {result : Except String Unit}
    (run : Runs (World attestor lossy) (attest attestor uuid outcome).run start steps
      result final)
    (changes : final.db ≠ start.db) :
    SetsEvent attestor uuid steps := by
  rcases runs_attest_cases roundTrip run with ⟨-, same, -⟩ |
    ⟨-, -, value, other, -, -, -, -, ⟨sets, -⟩ | ⟨-, same⟩⟩
  · exact absurd same changes
  · exact sets
  · exact absurd same changes

end Runs

/-! ## When `Ok` means stored -/

/-- A stored attestation is returned by `get_event`. -/
theorem StoredFor.returnsFor {attestor : Attestor} {texts : EventTexts}
    {state : AttestorState} {uuid : String} {outcome : Nat}
    (stored : StoredFor attestor state.db uuid outcome) :
    ReturnsFor attestor texts state uuid outcome := by
  intro steps result final run
  obtain ⟨value, stored, nonces, announcement, nbDigits, kept, announced, digits, recorded,
    attested⟩ := stored
  obtain ⟨row, found, holds⟩ := Option.bind_eq_some_iff.mp stored
  obtain ⟨text, decoded, parsed⟩ := text_of_value? holds
  obtain ⟨answer, middle, front, back, first, second, rfl⟩ :=
    (runs_run_lift_bind _ _).mp run
  have answered : answer = .ok (some text) := by
    obtain ⟨-, -, -, reads⟩ := runs_get_cases first
    refine (reads text).mpr ⟨row, ?_, decoded⟩
    rcases runs_run_bind _ _ first with ⟨error, asked, -⟩ | ⟨_, _, _, _, asked, -, rfl⟩
    · cases (runs_getEvent asked).1
    · obtain ⟨-, -, -, read⟩ := runs_getEvent asked
      exact (read row found).append _
  subst answered
  have parses : ∃ event, parseDatabaseEntry attestor texts text = .ok event ∧
      event.outcome = value.outcome ∧
      event.rustAttestation = value.attestation.map encodeHex := by
    unfold parseDatabaseEntry
    rw [parsed]
    dsimp only
    rw [announced]
    exact ⟨_, rfl, rfl, rfl⟩
  obtain ⟨event, parses, sameOutcome, sameAttestation⟩ := parses
  dsimp only at second
  rw [parses] at second
  obtain ⟨rfl, rfl, rfl⟩ := second
  refine ⟨event, nonces, nbDigits, rfl, sameOutcome.trans recorded, ?_⟩
  rw [sameAttestation, attested]
  rfl

/-- `attest` returns `Ok` only with the attestation stored, exactly if the request that
sets the record takes its effect, or the record already had it. -/
theorem attest_ok_stored_iff {attestor : Attestor} (texts : EventTexts)
    (roundTrip : attestor.encodings.RoundTrip) {lossy : Prop} {uuid : String}
    {outcome : Nat} {start final : AttestorState} {steps : List AttestorStep}
    {result : Except String Unit}
    (run : Runs (World attestor lossy) (attest attestor uuid outcome).run start steps
      result final) :
    ((result = .ok () → StoredFor attestor final.db uuid outcome ∧
        ReturnsFor attestor texts final uuid outcome) ∧
      (¬ StoredFor attestor final.db uuid outcome → ∃ error, result = .error error)) ↔
    ¬ ReadsAttestable attestor uuid steps ∨ SetsEvent attestor uuid steps ∨
      StoredFor attestor start.db uuid outcome := by
  obtain ⟨⟨error, rfl⟩, -, none⟩ | ⟨rfl, attestable, value, other, -, -, -, attested,
    outcomes⟩ := runs_attest_cases roundTrip run
  · exact ⟨fun _ => .inl none, fun _ => ⟨by simp, fun _ => ⟨error, rfl⟩⟩⟩
  constructor
  · rintro ⟨stores, -⟩
    obtain ⟨stored, -⟩ := stores rfl
    rcases outcomes with ⟨sets, -⟩ | ⟨-, same⟩
    · exact .inr (.inl sets)
    · rw [same] at stored
      exact .inr (.inr stored)
  · intro condition
    have stored : StoredFor attestor final.db uuid outcome := by
      rcases outcomes with ⟨-, stored⟩ | ⟨setsNone, same⟩
      · exact ⟨other, stored, attested⟩
      · rcases condition with notAttestable | sets | stored
        · exact absurd attestable notAttestable
        · exact absurd sets setsNone
        · rw [same]
          exact stored
    exact ⟨fun _ => ⟨stored, stored.returnsFor⟩, fun lost => absurd stored lost⟩

/-! ## An update that fails -/

/-- The state in which an event has been created. -/
def sampleEvent : AttestorState := (sampleCalls sampleFirst).2

/-- A world where no update gets through. -/
def serveWithoutUpdates (attestor : Attestor) :
    Responder AttestorState AttestorRequest AttestorRequest.Answer :=
  fun state request =>
    match request with
    | .api (.send _ (.updateEvent _)) => (.error ⟨"Updating event failed", 0⟩, state)
    | request => serve attestor state request

theorem world_serveWithoutUpdates (attestor : Attestor) (state : AttestorState)
    (request : AttestorRequest) :
    World attestor True state request (serveWithoutUpdates attestor state request).1
      (serveWithoutUpdates attestor state request).2 := by
  unfold serveWithoutUpdates
  split
  · exact ⟨.inr ⟨⟨_, rfl⟩, .inl rfl⟩, rfl, .inl trivial⟩
  · exact world_serve attestor True state _

/-- The event is attested. -/
def sampleAttest (responder : Responder AttestorState AttestorRequest AttestorRequest.Answer)
    (outcome : Nat) : List AttestorStep × Except String Unit × AttestorState :=
  eval responder (attest sampleAttestor "uuid" outcome).run sampleEvent

theorem runs_sampleAttest (outcome : Nat) :
    Runs (World sampleAttestor False) (attest sampleAttestor "uuid" outcome).run sampleEvent
      (sampleAttest (serve sampleAttestor) outcome).1
      (sampleAttest (serve sampleAttestor) outcome).2.1
      (sampleAttest (serve sampleAttestor) outcome).2.2 := by
  unfold sampleAttest
  -- the run is not to be evaluated to see that it is this one
  with_reducible exact runs_eval (serve sampleAttestor) (world_serve sampleAttestor False) _ _

theorem setsEvent_sampleAttest (outcome : Nat)
    (changes : (sampleAttest (serve sampleAttestor) outcome).2.2.db.events.find?
      (sampleAttestor.publicKey, "uuid") ≠
        sampleEvent.db.events.find? (sampleAttestor.publicKey, "uuid")) :
    SetsEvent sampleAttestor "uuid" (sampleAttest (serve sampleAttestor) outcome).1 := by
  refine setsEvent_of_changes (sampleEncodings_roundTrip _ _) (runs_sampleAttest outcome) ?_
  intro same
  exact changes (by rw [same])

def sampleTexts : EventTexts := ⟨fun _ => "{}", fun _ => none, fun _ => ""⟩

/-- The event is set to another value. -/
theorem changes_sampleAttest :
    (sampleAttest (serve sampleAttestor) 0).2.1 = .ok () ∧
      (sampleAttest (serve sampleAttestor) 0).2.2.db.events.find?
        (sampleAttestor.publicKey, "uuid") ≠
          sampleEvent.db.events.find? (sampleAttestor.publicKey, "uuid") := by
  decide +kernel

/-- A reliable network stores the attestation. -/
theorem attest_ok_stored_sampleAttest :
    ((sampleAttest (serve sampleAttestor) 0).2.1 = .ok () →
      StoredFor sampleAttestor (sampleAttest (serve sampleAttestor) 0).2.2.db "uuid" 0 ∧
        ReturnsFor sampleAttestor sampleTexts (sampleAttest (serve sampleAttestor) 0).2.2
          "uuid" 0) ∧
    (sampleAttest (serve sampleAttestor) 0).2.1 = .ok () := by
  obtain ⟨returned, changes⟩ := changes_sampleAttest
  have stores := (attest_ok_stored_iff sampleTexts (sampleEncodings_roundTrip _ _)
    (runs_sampleAttest 0)).mpr (.inr (.inl (setsEvent_sampleAttest 0 changes)))
  exact ⟨stores.1, returned⟩

/-- `attest` returns `Ok` although its update failed and nothing is stored. -/
theorem not_attest_ok_stored :
    ¬ ∀ (attestor : Attestor) (texts : EventTexts), attestor.encodings.RoundTrip →
      ∀ (uuid : String) (outcome : Nat) (start final : AttestorState)
        (steps : List AttestorStep) (result : Except String Unit),
        Runs (World attestor True) (attest attestor uuid outcome).run start steps result
          final →
        (result = .ok () → StoredFor attestor final.db uuid outcome ∧
          ReturnsFor attestor texts final uuid outcome) ∧
        (¬ StoredFor attestor final.db uuid outcome → ∃ error, result = .error error) := by
  intro claimed
  have run := runs_eval (serveWithoutUpdates sampleAttestor)
    (world_serveWithoutUpdates sampleAttestor) (attest sampleAttestor "uuid" 0).run sampleEvent
  have promised := claimed sampleAttestor sampleTexts (sampleEncodings_roundTrip _ _) "uuid" 0
    _ _ _ _ run
  obtain ⟨⟨value, stored, -, -, -, -, -, -, recorded, -⟩, -⟩ := promised.1 (by decide +kernel)
  have created : storedValue? sampleAttestor
      (sampleAttest (serveWithoutUpdates sampleAttestor) 0).2.2.db "uuid" =
        some (sampleCreated 0 0) := by
    decide +kernel
  obtain rfl := Option.some.inj (created.symm.trans stored)
  cases recorded

end WasmAttestor

end DlcStack
