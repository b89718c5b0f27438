import DlcStack.AttestorAnnouncements

/-!
# Signing with a nonce once

Two messages signed with one nonce reveal the signing key.  `attest` leaves the
secret nonces in the record that it writes back, so it signs with them again when
it is called again.  It signs the same digits as long as it is called with the
outcome that the record has, and the nonces of different records are different,
so then no nonce signs two messages.
-/

namespace DlcStack

namespace WasmAttestor

open Program Clients

/-- The messages that the steps sign, with the nonces they are signed with. -/
def signedPairs (steps : List AttestorStep) : List (String × SecretKey) :=
  steps.filterMap fun
    | ⟨_, .schnorrsigSignWithNonce message nonce, _, _⟩ => some (message, nonce)
    | _ => none

theorem signedPairs_append (front back : List AttestorStep) :
    signedPairs (front ++ back) = signedPairs front ++ signedPairs back :=
  List.filterMap_append

/-- No nonce signs two messages. -/
def SignsOnce (steps : List AttestorStep) : Prop :=
  ∀ first ∈ signedPairs steps, ∀ second ∈ signedPairs steps,
    first.2 = second.2 → first.1 = second.1

/-- A call of `attest` finds the record of its event without an outcome, or with
the outcome that it attests. -/
def AttestsAgain (attestor : Attestor) (call : AttestorCall)
    (steps : List AttestorStep) : Prop :=
  ∀ uuid outcome, call = .attest uuid outcome →
    ∀ row value other, ReadRow attestor uuid steps row →
      attestor.encodings.value? row.content = some value →
        value.outcome = some other → other = outcome

/-- Steps that neither draw nor sign. -/
structure Quiet (steps : List AttestorStep) : Prop where
  draws : drawnKeys steps = []
  signs : signedPairs steps = []

theorem Quiet.append {front back : List AttestorStep} (first : Quiet front)
    (second : Quiet back) : Quiet (front ++ back) where
  draws := by rw [drawnKeys_append, first.draws, second.draws, List.append_nil]
  signs := by rw [signedPairs_append, first.signs, second.signs, List.append_nil]

/-! ## Runs over a reliable network -/

section Runs

variable {attestor : Attestor} {start final : AttestorState} {steps : List AttestorStep}

/-- How a storage operation can go. -/
theorem runs_storage_cases {lossy : Prop} {α : Type} {sent : Storage.Call}
    {read : Storage.Response → Except ApiError α} {result : Except OracleError α}
    (run : Runs (World attestor lossy) (storage (StorageApiClient.request sent read)).run
      start steps result final) :
    (∃ error, result = .error (.storageApiError error) ∧ final = start ∧
      steps = [⟨start, .api .requestNonce, .error error, start⟩] ∧ lossy) ∨
    ∃ nonce answer,
      steps = [⟨start, .api .requestNonce, .ok nonce, start⟩,
        ⟨start, .api (.send nonce sent), answer, final⟩] ∧
      Network start.db (.send nonce sent) answer final.db ∧ final.drawn = start.drawn ∧
      result = (answer.bind read).mapError .storageApiError ∧
      (lossy ∨ ∃ res, answer = .ok res) := by
  obtain ⟨answer, middle, rest, ⟨sameDb, sameDrawn, replied⟩, rfl, run⟩ := run
  obtain rfl : middle = start := by
    cases middle
    cases start
    simp_all [Network]
  cases answer with
  | error error =>
      obtain ⟨rfl, rfl, rfl⟩ := run
      rcases replied with lost | ⟨_, ⟨⟩⟩
      exact .inl ⟨error, rfl, rfl, rfl, lost⟩
  | ok nonce =>
      obtain ⟨answer, last, rest, ⟨delivered, sameDrawn, replied⟩, rfl, run⟩ := run
      refine .inr ⟨nonce, answer, ?_⟩
      cases answer with
      | error error =>
          obtain ⟨rfl, rfl, rfl⟩ := run
          exact ⟨rfl, delivered, sameDrawn, rfl, replied⟩
      | ok res =>
          obtain ⟨rfl, rfl, rfl⟩ := run
          exact ⟨rfl, delivered, sameDrawn, rfl, replied⟩

theorem runs_storage {α : Type} {sent : Storage.Call}
    {read : Storage.Response → Except ApiError α} {result : Except OracleError α}
    (run : Runs (World attestor False) (storage (StorageApiClient.request sent read)).run
      start steps result final) :
    result = (read (sent.respond start.db).1).mapError .storageApiError ∧
      final = ⟨(sent.respond start.db).2, start.drawn⟩ ∧ Quiet steps ∧
      ∃ nonce, (⟨start, .api (.send nonce sent), .ok (sent.respond start.db).1, final⟩ :
        AttestorStep) ∈ steps := by
  obtain ⟨-, -, -, -, lost⟩ | ⟨nonce, answer, rfl, delivered, sameDrawn, rfl, replied⟩ :=
    runs_storage_cases run
  · exact lost.elim
  obtain ⟨res, rfl⟩ := replied.resolve_left id
  rcases delivered with ⟨answered, after⟩ | ⟨⟨_, failed⟩, _⟩
  · obtain rfl := Except.ok.inj answered
    have ends : final = ⟨(sent.respond start.db).2, start.drawn⟩ := by
      cases final
      simp_all
    exact ⟨rfl, ends, ⟨rfl, rfl⟩, nonce, by simp⟩
  · cases failed

theorem runs_getEvent {uuid : String}
    {result : Except OracleError (Option Storage.Event)}
    (run : Runs (World attestor False)
      (storage (StorageApiClient.getEvent attestor.publicKey uuid)).run start steps result
      final) :
    result = .ok (start.db.events.find? (attestor.publicKey, uuid)) ∧ final = start ∧
      Quiet steps ∧
      ∀ row, start.db.events.find? (attestor.publicKey, uuid) = some row →
        ReadRow attestor uuid steps row := by
  rw [getEvent_eq] at run
  obtain ⟨rfl, rfl, quiet, nonce, member⟩ := runs_storage run
  have answered : (Storage.Call.respond start.db
      (.getEvents ⟨attestor.publicKey, some uuid⟩)) =
        (⟨.ok, .events (start.db.events.find? (attestor.publicKey, uuid)).toList⟩,
          start.db) := by
    simp only [Storage.Call.respond, Storage.Handlers.getEvents,
      Storage.Database.getEvents_one]
  rw [answered] at member ⊢
  refine ⟨?_, rfl, quiet, ?_⟩
  · cases start.db.events.find? (attestor.publicKey, uuid) <;> rfl
  · intro row found
    rw [found] at member
    exact ⟨_, _, _, _, _, member⟩

/-- What is written before the end of an operation. -/
theorem runs_storage_last {α β : Type} {sent : Storage.Call}
    {read : Storage.Response → Except ApiError α} {value : β}
    {result : Except OracleError β}
    (run : Runs (World attestor False)
      (storage (StorageApiClient.request sent read) >>= fun _ => pure value).run start
      steps result final) :
    final.db = (sent.respond start.db).2 ∧ Quiet steps := by
  rcases runs_run_bind _ _ run with ⟨error, run, _⟩ |
    ⟨_, middle, front, back, first, last, rfl⟩
  · obtain ⟨_, rfl, quiet, _⟩ := runs_storage run
    exact ⟨rfl, quiet⟩
  · obtain ⟨_, rfl, quiet, _⟩ := runs_storage first
    obtain ⟨rfl, _, rfl⟩ := last
    rw [List.append_nil]
    exact ⟨rfl, quiet⟩

/-- Inserting sets the value of one event. -/
theorem runs_insert (roundTrip : attestor.encodings.RoundTrip) {uuid : String}
    {value : DbValue} {result : Except OracleError (Option String)}
    (run : Runs (World attestor False)
      (insert attestor uuid (attestor.encodings.toJson value)).run start steps result
      final) :
    Quiet steps ∧ ∀ eventId, storedValue? attestor final.db eventId =
      if eventId = uuid then some value else storedValue? attestor start.db eventId := by
  have decodes := roundTrip.value?_content value
  unfold Encodings.content at decodes
  rcases runs_run_bind _ _ run with ⟨error, run, _⟩ |
    ⟨event, middle, front, back, first, second, rfl⟩
  · cases (runs_getEvent run).1
  obtain ⟨found, rfl, quiet, _⟩ := runs_getEvent first
  have found := Except.ok.inj found
  unfold storedValue?
  cases event with
  | none =>
      obtain ⟨after, quiet'⟩ := runs_storage_last second
      refine ⟨quiet.append quiet', fun eventId => ?_⟩
      rw [after, respond_createEvent_snd, Storage.Database.find?_createEvent, ← found]
      by_cases same : eventId = uuid
      · subst same
        simpa [Storage.Database.newEventRow] using decodes
      · simp [same]
  | some row =>
      obtain ⟨after, quiet'⟩ := runs_storage_last second
      refine ⟨quiet.append quiet', fun eventId => ?_⟩
      rw [after, respond_updateEvent_snd, Storage.Database.find?_updateEvent]
      by_cases same : eventId = uuid
      · subst same
        rw [← found]
        simpa [Storage.Database.setEvent] using decodes
      · simp [same]

theorem runs_draw (places : List Nat) {keys : List SecretKey}
    (run : Runs (World attestor False)
      (places.mapM fun _ => perform AttestorRequest.newSecretKey) start steps keys final) :
    drawnKeys steps = keys ∧ signedPairs steps = [] ∧ final.db = start.db := by
  induction places generalizing start steps keys with
  | nil =>
      obtain ⟨rfl, rfl, rfl⟩ := run
      exact ⟨rfl, rfl, rfl⟩
  | cons place places ih =>
      obtain ⟨key, others, middle, front, back, first, second, rfl, rfl⟩ :=
        (runs_mapM_cons _ _ _).mp run
      obtain ⟨_, _, _, served, rfl, rfl, rfl, rfl⟩ := first
      obtain ⟨drew, signsNone, sameDb⟩ := ih second
      refine ⟨congrArg (key :: ·) drew, signsNone, ?_⟩
      rw [sameDb, served]

theorem runs_sign {lossy : Prop} (pairs : List (String × SecretKey))
    {signatures : List String}
    (run : Runs (World attestor lossy)
      (pairs.mapM fun (message, nonce) =>
        perform (AttestorRequest.schnorrsigSignWithNonce message nonce))
      start steps signatures final) :
    drawnKeys steps = [] ∧ signedPairs steps = pairs ∧ final = start ∧
      signatures = pairs.map fun (message, nonce) =>
        attestor.schnorrsigSignWithNonce message nonce := by
  induction pairs generalizing start steps signatures with
  | nil =>
      obtain ⟨rfl, rfl, rfl⟩ := run
      exact ⟨rfl, rfl, rfl, rfl⟩
  | cons pair pairs ih =>
      obtain ⟨signature, others, middle, front, back, first, second, rfl, rfl⟩ :=
        (runs_mapM_cons _ _ _).mp run
      obtain ⟨_, _, _, ⟨rfl, rfl⟩, rfl, rfl, rfl, rfl⟩ := first
      obtain ⟨drawsNone, signed, rfl, rfl⟩ := ih second
      exact ⟨drawsNone, congrArg (pair :: ·) signed, rfl, rfl⟩

/-- A record that is attested is signed, and inserted with the attestation. -/
theorem runs_attestValue {lossy : Prop} {uuid : String} {outcome nbDigits : Nat}
    {value : DbValue} {nonces : List SecretKey} {result : Except String Unit}
    (run : Runs (World attestor lossy)
      (attestValue attestor uuid outcome value nonces nbDigits).run start steps result
      final) :
    result = .ok () ∧ ∃ signatures signing inserted insertion,
      Runs (World attestor lossy)
        (((binaryDigits nbDigits outcome).zip nonces).mapM fun (message, nonce) =>
          perform (AttestorRequest.schnorrsigSignWithNonce message nonce))
        start signing signatures start ∧
      Runs (World attestor lossy)
        (insert attestor uuid (attestor.encodings.toJson
          { value with
            outcome := some outcome
            attestation := some (attestor.encodings.encodeAttestation
              (attestationOf attestor nonces (binaryDigits nbDigits outcome))) })).run
        start insertion inserted final ∧
      steps = signing ++ insertion := by
  obtain ⟨attestation, later, front, back, built, rest, rfl⟩ :=
    (runs_run_lift_bind _ _).mp run
  obtain ⟨signatures, later', signing, back', sign, ended, rfl⟩ := (runs_bind _ _).mp built
  obtain ⟨rfl, rfl, rfl⟩ := ended
  obtain ⟨-, -, rfl, rfl⟩ := runs_sign _ sign
  obtain ⟨inserted, last, insertion, back'', insert, ended, rfl⟩ :=
    (runs_run_lift_bind _ _).mp rest
  obtain ⟨rfl, rfl, rfl⟩ := ended
  refine ⟨rfl, _, signing, inserted, insertion, sign, insert, ?_⟩
  rw [List.append_nil, List.append_nil]

end Runs

/-! ## What a call does -/

/-- The secret nonces in a record. -/
def secretNonces (value : DbValue) : List SecretKey :=
  value.outstandingSkNonces.getD []

/-- What is signed to attest an outcome with a record. -/
def signings (attestor : Attestor) (value : DbValue) (outcome : Nat) :
    List (String × SecretKey) :=
  match attestor.encodings.readAnnouncement value.announcement with
  | .error _ => []
  | .ok announcement =>
      match announcement.oracleEvent.eventDescriptor.nbDigits? with
      | none => []
      | some nbDigits => (binaryDigits nbDigits outcome).zip (secretNonces value)

/-- A nonce signs one message of an outcome. -/
theorem zip_fst_unique {α β : Type} {messages : List α} {nonces : List β}
    (distinct : nonces.Nodup) {first second : α × β}
    (firstMember : first ∈ messages.zip nonces)
    (secondMember : second ∈ messages.zip nonces) (same : first.2 = second.2) :
    first.1 = second.1 := by
  induction messages generalizing nonces with
  | nil => simp at firstMember
  | cons message messages ih =>
      cases nonces with
      | nil => simp at firstMember
      | cons nonce nonces =>
          obtain ⟨absent, distinct⟩ := List.nodup_cons.mp distinct
          rw [List.zip_cons_cons, List.mem_cons] at firstMember secondMember
          rcases firstMember with rfl | firstMember <;>
            rcases secondMember with rfl | secondMember
          · rfl
          · have later := (List.of_mem_zip (show (second.1, second.2) ∈ _ from secondMember)).2
            rw [← same] at later
            exact absurd later absent
          · have later := (List.of_mem_zip (show (first.1, first.2) ∈ _ from firstMember)).2
            rw [same] at later
            exact absurd later absent
          · exact ih distinct firstMember secondMember

theorem signings_eq_zip (attestor : Attestor) (value : DbValue) (outcome : Nat) :
    ∃ messages : List String,
      signings attestor value outcome = messages.zip (secretNonces value) := by
  unfold signings
  split
  · exact ⟨[], rfl⟩
  · split
    · exact ⟨[], rfl⟩
    · exact ⟨_, rfl⟩

/-- What a call does to the stored values, draws and signs. -/
inductive CallEffect (attestor : Attestor) (before : String → Option DbValue) :
    AttestorCall → List AttestorStep → (String → Option DbValue) → Prop
  | silent {call : AttestorCall} {steps : List AttestorStep}
      (signsNone : signedPairs steps = []) : CallEffect attestor before call steps before
  | created {uuid maturation chain : String} {steps : List AttestorStep} {value : DbValue}
      (signsNone : signedPairs steps = []) (drew : drawnKeys steps = secretNonces value) :
      CallEffect attestor before (.createEvent uuid maturation chain) steps
        (Function.update before uuid (some value))
  | attested {uuid : String} {outcome : Nat} {steps : List AttestorStep}
      {row : Storage.Event} {value : DbValue} {attestation : Option (List UInt8)}
      (read : ReadRow attestor uuid steps row)
      (holds : attestor.encodings.value? row.content = some value)
      (stored : before uuid = some value)
      (signed : signedPairs steps = signings attestor value outcome) :
      CallEffect attestor before (.attest uuid outcome) steps
        (Function.update before uuid
          (some { value with outcome := some outcome, attestation := attestation }))

section Effects

variable {attestor : Attestor} {start final : AttestorState} {steps : List AttestorStep}
  {result : Except String Unit}

theorem storedValue?_eq_update {before after : Storage.Database} {uuid : String}
    {value : DbValue}
    (sets : ∀ eventId, storedValue? attestor after eventId =
      if eventId = uuid then some value else storedValue? attestor before eventId) :
    storedValue? attestor after =
      Function.update (storedValue? attestor before) uuid (some value) := by
  funext eventId
  rw [sets, Function.update_apply]

theorem runs_createEvent (roundTrip : attestor.encodings.RoundTrip)
    {uuid maturation chain : String}
    (run : Runs (World attestor False) (createEvent attestor uuid maturation chain).run
      start steps result final) :
    CallEffect attestor (storedValue? attestor start.db)
      (.createEvent uuid maturation chain) steps (storedValue? attestor final.db) := by
  unfold createEvent at run
  cases parsed : attestor.parseRfc3339 maturation with
  | none =>
      rw [parsed] at run
      obtain ⟨rfl, _, rfl⟩ := run
      exact .silent rfl
  | some maturation =>
      rw [parsed] at run
      dsimp only at run
      unfold buildAnnouncement generateNoncesForEvent eventDescriptor at run
      rw [bind_assoc, bind_assoc] at run
      obtain ⟨keys, middle, front, back, first, second, rfl⟩ :=
        (runs_run_lift_bind _ _).mp run
      obtain ⟨drew, signsNone, sameDb⟩ := runs_draw _ first
      rw [pure_bind] at second
      dsimp only at second
      split_ifs at second with fits
      · rw [bind_assoc] at second
        obtain ⟨sig, later, front', back', sign, third, rfl⟩ :=
          (runs_run_lift_bind _ _).mp second
        obtain ⟨sig', later', rest, signed, rfl, ended⟩ := sign
        obtain ⟨rfl, rfl, rfl⟩ := ended
        obtain rfl : later = middle := signed
        rw [pure_bind] at third
        obtain ⟨inserted, last, front'', back'', insertion, rest, rfl⟩ :=
          (runs_run_lift_bind _ _).mp third
        obtain ⟨quiet, sets⟩ := runs_insert roundTrip insertion
        have ends : back'' = [] ∧ final = last := by
          rcases inserted with _ | _ | _ <;> exact ⟨rest.1, rest.2.2⟩
        obtain ⟨rfl, rfl⟩ := ends
        rw [sameDb] at sets
        rw [storedValue?_eq_update sets]
        apply CallEffect.created
        · rw [signedPairs_append, signsNone, List.append_nil]
          exact quiet.signs
        · rw [drawnKeys_append, drew, List.append_nil]
          have drawsNone : drawnKeys (⟨later, .signSchnorr _, sig, later⟩ :: front'') = [] :=
            quiet.draws
          rw [List.cons_append, List.nil_append, drawsNone, List.append_nil]
          rfl
      · obtain ⟨rfl, _, rfl⟩ := second
        rw [List.append_nil, sameDb]
        exact .silent signsNone

theorem runs_get {uuid : String} {answer : Except OracleError (Option String)}
    (run : Runs (World attestor False) (get attestor uuid).run start steps answer final) :
    final = start ∧ Quiet steps ∧ ∀ text, answer = .ok (some text) →
      ∃ row, start.db.events.find? (attestor.publicKey, uuid) = some row ∧
        ReadRow attestor uuid steps row ∧
        attestor.encodings.base64Decode row.content = .ok text := by
  rcases runs_run_bind _ _ run with ⟨error, first, _⟩ |
    ⟨event, middle, front, back, first, second, rfl⟩
  · cases (runs_getEvent first).1
  obtain ⟨found, rfl, quiet, read⟩ := runs_getEvent first
  have found := Except.ok.inj found
  cases event with
  | none =>
      obtain ⟨rfl, rfl, rfl⟩ := second
      rw [List.append_nil]
      exact ⟨rfl, quiet, by rintro _ ⟨⟩⟩
  | some row =>
      dsimp only at second
      cases decoded : attestor.encodings.base64Decode row.content with
      | error error =>
          rw [decoded] at second
          obtain ⟨rfl, rfl, rfl⟩ := second
          rw [List.append_nil]
          exact ⟨rfl, quiet, by rintro _ ⟨⟩⟩
      | ok res =>
          rw [decoded] at second
          obtain ⟨rfl, rfl, rfl⟩ := second
          rw [List.append_nil]
          refine ⟨rfl, quiet, ?_⟩
          rintro _ ⟨⟩
          exact ⟨row, found.symm, read row found.symm, decoded⟩

theorem runs_attest (roundTrip : attestor.encodings.RoundTrip)
    {uuid : String} {outcome : Nat}
    (run : Runs (World attestor False) (attest attestor uuid outcome).run start steps
      result final) :
    CallEffect attestor (storedValue? attestor start.db) (.attest uuid outcome) steps
      (storedValue? attestor final.db) := by
  obtain ⟨rest, split, attests, fails⟩ := attest_split attestor uuid outcome
  rw [split] at run
  obtain ⟨answer, middle, front, back, first, second, rfl⟩ :=
    (runs_run_lift_bind _ _).mp run
  obtain ⟨rfl, quiet, reads⟩ := runs_get first
  by_cases attestable : ∃ text value nonces announcement nbDigits,
      answer = .ok (some text) ∧
        Attestable attestor text value nonces announcement nbDigits
  · obtain ⟨text, value, nonces, announcement, nbDigits, rfl, attestable⟩ := attestable
    obtain ⟨row, found, read, decoded⟩ := reads text rfl
    have holds := attestable.value? decoded
    have stored : storedValue? attestor middle.db uuid = some value := by
      rw [storedValue?, found, Option.bind_some, holds]
    rw [attests attestable] at second
    obtain ⟨-, signatures, signing, inserted, insertion, sign, insert, rfl⟩ :=
      runs_attestValue second
    obtain ⟨drawsNone, signed, -, -⟩ := runs_sign _ sign
    obtain ⟨quiet', sets⟩ := runs_insert roundTrip insert
    rw [storedValue?_eq_update sets]
    apply CallEffect.attested (read.append _) holds stored
    simp [signedPairs_append, quiet.signs, signed, quiet'.signs, signings,
      attestable.announced, attestable.digits, secretNonces, attestable.kept]
  · obtain ⟨error, failed⟩ := fails answer attestable
    rw [failed] at second
    obtain ⟨rfl, _, rfl⟩ := second
    rw [List.append_nil]
    exact .silent quiet.signs

theorem runs_call (roundTrip : attestor.encodings.RoundTrip) {call : AttestorCall}
    (run : Runs (World attestor False) (call.run attestor).run start steps result final) :
    CallEffect attestor (storedValue? attestor start.db) call steps
      (storedValue? attestor final.db) := by
  cases call with
  | createEvent uuid maturation chain => exact runs_createEvent roundTrip run
  | attest uuid outcome => exact runs_attest roundTrip run

end Effects

/-! ## Nonces of different records -/

/-- The nonces of the stored records were drawn, and differ from each other. -/
structure Separate (past : List AttestorStep) (stored : String → Option DbValue) :
    Prop where
  drawn : ∀ eventId value, stored eventId = some value →
    ∀ nonce ∈ secretNonces value, nonce ∈ drawnKeys past
  distinct : ∀ eventId value, stored eventId = some value → (secretNonces value).Nodup
  separate : ∀ eventId other value otherValue, eventId ≠ other →
    stored eventId = some value → stored other = some otherValue →
      (secretNonces value).Disjoint (secretNonces otherValue)

/-- What was signed with a nonce of the record signed its outcome. -/
def Committed (attestor : Attestor) (past : List AttestorStep) (value : DbValue) : Prop :=
  ∀ pair ∈ signedPairs past, pair.2 ∈ secretNonces value →
    ∃ outcome, value.outcome = some outcome ∧ pair ∈ signings attestor value outcome

/-- Drawn nonces have signed only the outcomes of the records that they are in, and
one message each. -/
structure Guarded (attestor : Attestor) (past : List AttestorStep)
    (stored : String → Option DbValue) : Prop extends Separate past stored where
  signedDrawn : ∀ pair ∈ signedPairs past, pair.2 ∈ drawnKeys past
  committed : ∀ eventId value, stored eventId = some value →
    Committed attestor past value
  once : SignsOnce past

section Guarded

variable {attestor : Attestor} {past steps : List AttestorStep}
  {stored : String → Option DbValue}

theorem update_eq_some {uuid eventId : String} {value other : DbValue}
    (found : Function.update stored uuid (some value) eventId = some other) :
    (eventId = uuid ∧ other = value) ∨ (eventId ≠ uuid ∧ stored eventId = some other) := by
  by_cases same : eventId = uuid
  · subst same
    rw [Function.update_self] at found
    exact .inl ⟨rfl, (Option.some.inj found).symm⟩
  · rw [Function.update_of_ne same] at found
    exact .inr ⟨same, found⟩

theorem Separate.append (separated : Separate past stored) (later : List AttestorStep) :
    Separate (past ++ later) stored where
  drawn eventId value found nonce member := by
    rw [drawnKeys_append]
    exact List.mem_append_left _ (separated.drawn eventId value found nonce member)
  distinct := separated.distinct
  separate := separated.separate

/-- Replacing a record by one whose nonces no other record has. -/
theorem Separate.update (separated : Separate past stored) {uuid : String}
    {value : DbValue} (drawn : ∀ nonce ∈ secretNonces value, nonce ∈ drawnKeys past)
    (distinct : (secretNonces value).Nodup)
    (apart : ∀ eventId other, eventId ≠ uuid → stored eventId = some other →
      (secretNonces value).Disjoint (secretNonces other)) :
    Separate past (Function.update stored uuid (some value)) := by
  refine ⟨?_, ?_, ?_⟩
  · intro eventId other found
    rcases update_eq_some found with ⟨_, rfl⟩ | ⟨_, found⟩
    · exact drawn
    · exact separated.drawn eventId other found
  · intro eventId other found
    rcases update_eq_some found with ⟨_, rfl⟩ | ⟨_, found⟩
    · exact distinct
    · exact separated.distinct eventId other found
  · intro eventId eventId' first second different firstFound secondFound
    rcases update_eq_some firstFound with ⟨rfl, rfl⟩ | ⟨others, firstFound'⟩ <;>
      rcases update_eq_some secondFound with ⟨rfl, rfl⟩ | ⟨others', secondFound'⟩
    · exact absurd rfl different
    · exact apart eventId' second others' secondFound'
    · exact List.disjoint_comm.mp (apart eventId first others firstFound')
    · exact separated.separate eventId eventId' first second different firstFound'
        secondFound'

/-- Drawing more keys. -/
theorem Guarded.silent (guarded : Guarded attestor past stored)
    (signsNone : signedPairs steps = []) : Guarded attestor (past ++ steps) stored := by
  have same : signedPairs (past ++ steps) = signedPairs past := by
    rw [signedPairs_append, signsNone, List.append_nil]
  refine ⟨guarded.toSeparate.append steps, ?_, ?_, ?_⟩
  · intro pair member
    rw [same] at member
    rw [drawnKeys_append]
    exact List.mem_append_left _ (guarded.signedDrawn pair member)
  · unfold Committed
    rw [same]
    exact guarded.committed
  · unfold SignsOnce
    rw [same]
    exact guarded.once

/-- A record with new nonces. -/
theorem Guarded.created (guarded : Guarded attestor past stored) {uuid : String}
    {value : DbValue} (signsNone : signedPairs steps = [])
    (drew : drawnKeys steps = secretNonces value)
    (fresh : (drawnKeys (past ++ steps)).Nodup) :
    Guarded attestor (past ++ steps) (Function.update stored uuid (some value)) := by
  rw [drawnKeys_append, drew] at fresh
  obtain ⟨_, distinct, apart⟩ := List.nodup_append.mp fresh
  have silent := guarded.silent signsNone
  have new {nonce : SecretKey} (member : nonce ∈ secretNonces value) :
      nonce ∉ drawnKeys past := fun earlier => apart nonce earlier nonce member rfl
  refine ⟨silent.toSeparate.update ?_ distinct ?_, silent.signedDrawn, ?_, silent.once⟩
  · intro nonce member
    rw [drawnKeys_append, drew]
    exact List.mem_append_right _ member
  · intro eventId other _ found nonce member otherMember
    exact new member (guarded.drawn eventId other found nonce otherMember)
  · intro eventId other found
    rcases update_eq_some found with ⟨_, rfl⟩ | ⟨_, found⟩
    · intro pair signed member
      rw [signedPairs_append, signsNone, List.append_nil] at signed
      exact absurd (guarded.signedDrawn pair signed) (new member)
    · exact silent.committed eventId other found

/-- Signing the outcome of a record, or one for a record that has none. -/
theorem Guarded.attested (guarded : Guarded attestor past stored) {uuid : String}
    {value : DbValue} {outcome : Nat} {attestation : Option (List UInt8)}
    (found : stored uuid = some value)
    (signed : signedPairs steps = signings attestor value outcome)
    (again : ∀ other, value.outcome = some other → other = outcome) :
    Guarded attestor (past ++ steps) (Function.update stored uuid
      (some { value with outcome := some outcome, attestation := attestation })) := by
  obtain ⟨messages, zipped⟩ := signings_eq_zip attestor value outcome
  have own {pair : String × SecretKey} (member : pair ∈ signedPairs steps) :
      pair.2 ∈ secretNonces value := by
    rw [signed, zipped] at member
    exact (List.of_mem_zip (show (pair.1, pair.2) ∈ _ from member)).2
  -- every pair with a nonce of the record signs this outcome
  have agrees : ∀ pair ∈ signedPairs (past ++ steps), pair.2 ∈ secretNonces value →
      pair ∈ signings attestor value outcome := by
    intro pair member nonce
    rw [signedPairs_append, signed] at member
    rcases List.mem_append.mp member with member | member
    · obtain ⟨other, attested, signing⟩ :=
        guarded.committed uuid value found pair member nonce
      rw [again other attested] at signing
      exact signing
    · exact member
  have earlier {pair : String × SecretKey} (member : pair ∈ signedPairs (past ++ steps))
      (foreign : pair.2 ∉ secretNonces value) : pair ∈ signedPairs past := by
    rw [signedPairs_append] at member
    exact (List.mem_append.mp member).resolve_right fun member => foreign (own member)
  refine ⟨(guarded.toSeparate.append steps).update ?_ ?_ ?_, ?_, ?_, ?_⟩
  · exact (guarded.toSeparate.append steps).drawn uuid value found
  · exact guarded.distinct uuid value found
  · exact fun eventId other different => guarded.separate uuid eventId value other
      (Ne.symm different) found
  · intro pair member
    by_cases ours : pair.2 ∈ secretNonces value
    · exact (guarded.toSeparate.append steps).drawn uuid value found _ ours
    · rw [drawnKeys_append]
      exact List.mem_append_left _ (guarded.signedDrawn pair (earlier member ours))
  · intro eventId other otherFound
    rcases update_eq_some otherFound with ⟨_, rfl⟩ | ⟨different, otherFound⟩
    · exact fun pair member ours => ⟨outcome, rfl, agrees pair member ours⟩
    · intro pair member theirs
      refine guarded.committed eventId other otherFound pair (earlier member ?_) theirs
      exact fun ours => guarded.separate eventId uuid other value different otherFound
        found theirs ours
  · intro first firstMember second secondMember same
    by_cases ours : first.2 ∈ secretNonces value
    · have firstSigned := agrees first firstMember ours
      have secondSigned := agrees second secondMember (same ▸ ours)
      rw [zipped] at firstSigned secondSigned
      exact zip_fst_unique (guarded.distinct uuid value found) firstSigned secondSigned
        same
    · exact guarded.once first (earlier firstMember ours) second
        (earlier secondMember (same ▸ ours)) same

/-- A call that attests an outcome at most again keeps the records guarded. -/
theorem Guarded.call {call : AttestorCall} {after : String → Option DbValue}
    (guarded : Guarded attestor past stored)
    (effect : CallEffect attestor stored call steps after)
    (fresh : (drawnKeys (past ++ steps)).Nodup)
    (again : AttestsAgain attestor call steps) :
    Guarded attestor (past ++ steps) after := by
  cases effect with
  | silent signsNone => exact guarded.silent signsNone
  | created signsNone drew => exact guarded.created signsNone drew fresh
  | attested read holds found signed =>
      exact guarded.attested found signed
        fun other attested => again _ _ rfl _ _ other read holds attested

end Guarded

/-- Over every sequence of calls of an attestor, if the drawn nonces differ and no
record is attested with another outcome than it has, no nonce signs two messages. -/
theorem nonces_sign_once {attestor : Attestor} (roundTrip : attestor.encodings.RoundTrip)
    {start final : AttestorState} {sessions : List AttestorSession}
    (unstored : ∀ eventId, start.db.events.find? (attestor.publicKey, eventId) = none)
    (runs : RunsEach (World attestor False)
      (fun call : AttestorCall => (call.run attestor).run) start sessions final)
    (fresh : (drawnKeys (sessions.flatMap (·.steps))).Nodup)
    (again : ∀ session ∈ sessions, AttestsAgain attestor session.operation session.steps) :
    SignsOnce (sessions.flatMap (·.steps)) := by
  have nothing : ∀ eventId, storedValue? attestor start.db eventId = none := by
    intro eventId
    rw [storedValue?, unstored, Option.bind_none]
  have initially : (drawnKeys []).Nodup →
      Guarded attestor [] (storedValue? attestor start.db) := by
    intro _
    refine ⟨⟨?_, ?_, ?_⟩, ?_, ?_, ?_⟩ <;> simp [nothing, signedPairs, SignsOnce]
  have guarded := runs.history_invariant
    (fun past state => (drawnKeys past).Nodup →
      Guarded attestor past (storedValue? attestor state.db))
    (fun session => AttestsAgain attestor session.operation session.steps)
    (fun past session state after again guarded run fresh => ?_) again initially
  · exact (guarded fresh).once
  · have before : (drawnKeys past).Nodup := by
      rw [drawnKeys_append] at fresh
      exact (List.nodup_append.mp fresh).1
    exact (guarded before).call (runs_call roundTrip run) fresh again

/-- The records that the steps read have no outcome or this one. -/
def readsOutcome (attestor : Attestor) (outcome : Nat) (steps : List AttestorStep) : Bool :=
  steps.all fun
    | ⟨_, .api (.send _ _), .ok ⟨_, .events rows⟩, _⟩ => rows.all fun row =>
        ((attestor.encodings.value? row.content).bind (·.outcome)).all (· == outcome)
    | _ => true

theorem attestsAgain_of_readsOutcome {attestor : Attestor} {uuid : String}
    {outcome : Nat} {steps : List AttestorStep}
    (reads : readsOutcome attestor outcome steps = true) :
    AttestsAgain attestor (.attest uuid outcome) steps := by
  rintro _ _ ⟨⟩ row value other ⟨before, nonce, status, rows, after, member⟩ holds attested
  have read := List.all_eq_true.mp reads _ member
  simp only [List.all_cons, Bool.and_eq_true] at read
  simpa [holds, attested] using read.1

def readsAgain (attestor : Attestor) (session : AttestorSession) : Bool :=
  match session.operation with
  | .createEvent _ _ _ => true
  | .attest _ outcome => readsOutcome attestor outcome session.steps

theorem attestsAgain_of_readsAgain {attestor : Attestor} {session : AttestorSession}
    (reads : readsAgain attestor session = true) :
    AttestsAgain attestor session.operation session.steps := by
  obtain ⟨operation, steps, result⟩ := session
  cases operation with
  | createEvent uuid maturation chain => rintro _ _ ⟨⟩
  | attest uuid outcome => exact attestsAgain_of_readsOutcome reads

/-- An event that is attested twice with one outcome. -/
def sampleAgain : List AttestorCall :=
  [.createEvent "uuid" "maturation" "chain", .attest "uuid" 1, .attest "uuid" 1]

theorem nonces_sign_once_sampleAgain :
    SignsOnce ((sampleCalls sampleAgain).1.flatMap (·.steps)) := by
  have ran : (drawnKeys ((sampleCalls sampleAgain).1.flatMap (·.steps))).Nodup ∧
      (sampleCalls sampleAgain).1.all (readsAgain sampleAttestor) = true := by
    decide +kernel
  obtain ⟨distinct, reads⟩ := ran
  apply nonces_sign_once (sampleEncodings_roundTrip _ _) (fun eventId => ?_)
    (runs_sampleCalls sampleAgain False) distinct
  · intro session member
    exact attestsAgain_of_readsAgain (List.all_eq_true.mp reads session member)
  · rw [sampleStart, Storage.Database.empty, UniqueTable.find?_empty]

/-- An event that is attested with two outcomes. -/
def sampleContradicting : List AttestorCall :=
  [.createEvent "uuid" "maturation" "chain", .attest "uuid" 0, .attest "uuid" 1]

/-- The last digits of both outcomes are signed with the same nonce. -/
theorem nonces_not_sign_once :
    ∃ sessions final,
      RunsEach (World sampleAttestor False)
        (fun call : AttestorCall => (call.run sampleAttestor).run) sampleStart sessions
        final ∧
      sessions.map (·.operation) = sampleContradicting ∧
      (drawnKeys (sessions.flatMap (·.steps))).Nodup ∧
      ¬ SignsOnce (sessions.flatMap (·.steps)) := by
  have ran : (drawnKeys ((sampleCalls sampleContradicting).1.flatMap (·.steps))).Nodup ∧
      ("0", (sampleNonces 0).getLast (by decide)) ∈
        signedPairs ((sampleCalls sampleContradicting).1.flatMap (·.steps)) ∧
      ("1", (sampleNonces 0).getLast (by decide)) ∈
        signedPairs ((sampleCalls sampleContradicting).1.flatMap (·.steps)) := by
    decide +kernel
  obtain ⟨distinct, last, last'⟩ := ran
  refine ⟨_, _, runs_sampleCalls sampleContradicting False, map_operation_evalEach _ _ _ _,
    distinct, ?_⟩
  intro once
  have same := once _ last _ last' rfl
  simp at same

end WasmAttestor

end DlcStack
