import DlcStack.AttestorProgram

/-!
# What the attestor writes

Each operation of the attestor addresses the record of one event.  What
`create_event` writes is made of the nonces that it drew, and what `attest` writes
is a record that it read, with the attestation of one outcome added.  Nothing of
this depends on what others do to the database in between.
-/

namespace DlcStack

namespace WasmAttestor

open Program Clients

/-- The attestation that is built with these nonces. -/
def attestationOf (attestor : Attestor) (nonces : List SecretKey)
    (outcomes : List String) : OracleAttestation where
  oraclePublicKey := attestor.oraclePublicKey
  signatures := (outcomes.zip nonces).map fun (message, nonce) =>
    attestor.schnorrsigSignWithNonce message nonce
  outcomes := outcomes

/-- The secret keys that the steps draw. -/
def drawnKeys (steps : List AttestorStep) : List SecretKey :=
  steps.filterMap fun
    | ⟨_, .newSecretKey, key, _⟩ => some key
    | _ => none

theorem drawnKeys_append (front back : List AttestorStep) :
    drawnKeys (front ++ back) = drawnKeys front ++ drawnKeys back :=
  List.filterMap_append

/-- A step read the record of the event. -/
def ReadRow (attestor : Attestor) (uuid : String) (steps : List AttestorStep)
    (row : Storage.Event) : Prop :=
  ∃ before nonce status rows after,
    (⟨before, .api (.send nonce (.getEvents ⟨attestor.publicKey, some uuid⟩)),
      .ok ⟨status, .events (row :: rows)⟩, after⟩ : AttestorStep) ∈ steps

theorem ReadRow.append {attestor : Attestor} {uuid : String} {steps : List AttestorStep}
    {row : Storage.Event} (read : ReadRow attestor uuid steps row)
    (later : List AttestorStep) : ReadRow attestor uuid (steps ++ later) row := by
  obtain ⟨before, nonce, status, rows, after, member⟩ := read
  exact ⟨before, nonce, status, rows, after, List.mem_append_left _ member⟩

theorem ReadRow.prepend {attestor : Attestor} {uuid : String} {steps : List AttestorStep}
    {row : Storage.Event} (read : ReadRow attestor uuid steps row)
    (earlier : List AttestorStep) : ReadRow attestor uuid (earlier ++ steps) row := by
  obtain ⟨before, nonce, status, rows, after, member⟩ := read
  exact ⟨before, nonce, status, rows, after, List.mem_append_right _ member⟩

/-- The values that a call writes after these steps. -/
inductive Written (attestor : Attestor) :
    AttestorCall → List AttestorStep → DbValue → Prop
  | created {uuid maturation chain : String} {steps : List AttestorStep}
      {nonces : List SecretKey} {announcement : OracleAnnouncement} {epoch : Nat}
      (drew : drawnKeys steps = nonces)
      (announces : announcement.oracleEvent =
        ⟨nonces.map attestor.schnorrPublicKey, epoch, eventDescriptor, uuid⟩) :
      Written attestor (.createEvent uuid maturation chain) steps
        ⟨some nonces, attestor.encodings.encodeAnnouncement announcement, none, none,
          uuid, some chain⟩
  | attested {uuid : String} {outcome nbDigits : Nat} {steps : List AttestorStep}
      {row : Storage.Event} {value : DbValue} {nonces : List SecretKey}
      {announcement : OracleAnnouncement}
      (read : ReadRow attestor uuid steps row)
      (holds : attestor.encodings.value? row.content = some value)
      (kept : value.outstandingSkNonces = some nonces)
      (announced :
        attestor.encodings.readAnnouncement value.announcement = .ok announcement)
      (digits : announcement.oracleEvent.eventDescriptor.nbDigits? = some nbDigits) :
      Written attestor (.attest uuid outcome) steps
        { value with
          outcome := some outcome
          attestation := some (attestor.encodings.encodeAttestation
            (attestationOf attestor nonces (binaryDigits nbDigits outcome))) }

/-- The text is of a record that `attest` attests. -/
structure Attestable (attestor : Attestor) (text : String) (value : DbValue)
    (nonces : List SecretKey) (announcement : OracleAnnouncement) (nbDigits : Nat) :
    Prop where
  parsed : attestor.encodings.fromJson text = .ok value
  kept : value.outstandingSkNonces = some nonces
  announced : attestor.encodings.readAnnouncement value.announcement = .ok announcement
  digits : announcement.oracleEvent.eventDescriptor.nbDigits? = some nbDigits

/-- What `attest` does with the record. -/
def attestValue (attestor : Attestor) (uuid : String) (outcome : Nat) (value : DbValue)
    (nonces : List SecretKey) (nbDigits : Nat) : ExceptT String AttestorProgram Unit := do
  let attestation ← ExceptT.lift
    (buildAttestation attestor nonces (binaryDigits nbDigits outcome))
  let _ ← ExceptT.lift (insert attestor uuid (attestor.encodings.toJson
    { value with
      outcome := some outcome
      attestation := some (attestor.encodings.encodeAttestation attestation) })).run
  return ()

/-- `attest` fails on every answer about the event but a record that it attests. -/
theorem attest_split (attestor : Attestor) (uuid : String) (outcome : Nat) :
    ∃ rest : Except OracleError (Option String) → ExceptT String AttestorProgram Unit,
      attest attestor uuid outcome = ExceptT.lift (get attestor uuid).run >>= rest ∧
      (∀ {text value nonces announcement nbDigits},
        Attestable attestor text value nonces announcement nbDigits →
          rest (.ok (some text)) =
            attestValue attestor uuid outcome value nonces nbDigits) ∧
      ∀ answer, (¬ ∃ text value nonces announcement nbDigits, answer = .ok (some text) ∧
        Attestable attestor text value nonces announcement nbDigits) →
          ∃ error, rest answer = throw error := by
  refine ⟨_, rfl, ?_, ?_⟩
  · intro text value nonces announcement nbDigits attestable
    simp only [attestValue, attestable.parsed, attestable.kept, attestable.announced,
      attestable.digits]
  · intro answer unattestable
    rcases answer with error | _ | text
    · exact ⟨_, rfl⟩
    · exact ⟨_, rfl⟩
    dsimp only
    cases parsed : attestor.encodings.fromJson text with
    | error error => exact ⟨_, rfl⟩
    | ok value =>
    dsimp only
    cases kept : value.outstandingSkNonces with
    | none => exact ⟨_, rfl⟩
    | some nonces =>
    dsimp only
    cases announced : attestor.encodings.readAnnouncement value.announcement with
    | error error => exact ⟨_, rfl⟩
    | ok announcement =>
    dsimp only
    cases digits : announcement.oracleEvent.eventDescriptor.nbDigits? with
    | none => exact ⟨_, rfl⟩
    | some nbDigits =>
        exact absurd ⟨text, value, nonces, announcement, nbDigits, rfl,
          parsed, kept, announced, digits⟩ unattestable

theorem Attestable.value? {attestor : Attestor} {text content : String} {value : DbValue}
    {nonces : List SecretKey} {announcement : OracleAnnouncement} {nbDigits : Nat}
    (attestable : Attestable attestor text value nonces announcement nbDigits)
    (decoded : attestor.encodings.base64Decode content = .ok text) :
    attestor.encodings.value? content = some value := by
  simp [Encodings.value?, decoded, attestable.parsed, Except.toOption]

/-- The record that `attest` writes over one that it attests. -/
theorem Attestable.written {attestor : Attestor} {text uuid : String} {value : DbValue}
    {nonces : List SecretKey} {announcement : OracleAnnouncement} {nbDigits : Nat}
    {steps : List AttestorStep} {row : Storage.Event}
    (attestable : Attestable attestor text value nonces announcement nbDigits)
    (outcome : Nat) (read : ReadRow attestor uuid steps row)
    (decoded : attestor.encodings.base64Decode row.content = .ok text) :
    Written attestor (.attest uuid outcome) steps
      { value with
        outcome := some outcome
        attestation := some (attestor.encodings.encodeAttestation
          (attestationOf attestor nonces (binaryDigits nbDigits outcome))) } :=
  .attested read (attestable.value? decoded) attestable.kept attestable.announced
    attestable.digits

/-- Steps that draw no keys do not change what a call writes. -/
theorem Written.append {attestor : Attestor} {call : AttestorCall}
    {steps later : List AttestorStep} {value : DbValue}
    (written : Written attestor call steps value) (drawsNone : drawnKeys later = []) :
    Written attestor call (steps ++ later) value := by
  have same : drawnKeys (steps ++ later) = drawnKeys steps := by
    rw [drawnKeys_append, drawsNone, List.append_nil]
  cases written with
  | created drew announces => exact .created (same.trans drew) announces
  | attested read holds kept announced digits =>
      exact .attested (read.append later) holds kept announced digits

/-- The request sets the record of the event, which was read before, or creates it
with the content. -/
inductive Sets (attestor : Attestor) (uuid content : String) (past : List AttestorStep) :
    Storage.Call → Prop
  | update (found : ∃ row, ReadRow attestor uuid past row) :
      Sets attestor uuid content past (.updateEvent ⟨uuid, content, attestor.publicKey⟩)
  | create :
      Sets attestor uuid content past (.createEvent ⟨uuid, content, attestor.publicKey⟩)

theorem Sets.append {attestor : Attestor} {uuid content : String}
    {past : List AttestorStep} {sent : Storage.Call}
    (sets : Sets attestor uuid content past sent) (later : List AttestorStep) :
    Sets attestor uuid content (past ++ later) sent := by
  cases sets with
  | update found =>
      obtain ⟨row, read⟩ := found
      exact .update ⟨row, read.append later⟩
  | create => exact .create

/-- Of the storage, a call reads the record of its event, and sets it to what it
writes. -/
def Proper (attestor : Attestor) (call : AttestorCall) (past : List AttestorStep)
    (step : AttestorStep) : Prop :=
  ∀ nonce sent, step.request = .api (.send nonce sent) →
    sent = .getEvents ⟨attestor.publicKey, some call.uuid⟩ ∨
      ∃ value, Written attestor call past value ∧
        Sets attestor call.uuid (attestor.encodings.content value) past sent

/-! ## Storage requests -/

/-- The client reads one record with the request for all of them. -/
theorem getEvent_eq (key eventId : String) :
    StorageApiClient.getEvent key eventId =
      StorageApiClient.request (.getEvents ⟨key, some eventId⟩) fun res =>
        (StorageApiClient.readEvents res).map List.head? := by
  unfold StorageApiClient.getEvent StorageApiClient.getEvents StorageApiClient.request
  simp only [bind_assoc]
  refine congrArg _ (funext fun nonce => congrArg _ (funext fun res => ?_))
  cases StorageApiClient.readEvents res <;> rfl

section Always

variable {attestor : Attestor} {lossy : Prop} {past : List AttestorStep}
  {state : AttestorState}

/-- The rule of a storage operation. -/
theorem always_storage {α : Type} {sent : Storage.Call}
    {read : Storage.Response → Except ApiError α}
    {good : List AttestorStep → AttestorStep → Prop}
    {post : List AttestorStep → Except OracleError α → AttestorState → Prop}
    (asks : ∀ past before answer after,
      good past ⟨before, .api .requestNonce, answer, after⟩)
    (sends : ∀ later nonce before answer after, drawnKeys later = [] →
      good (past ++ later) ⟨before, .api (.send nonce sent), answer, after⟩)
    (failed : ∀ later error after, drawnKeys later = [] →
      post (past ++ later) (.error (.storageApiError error)) after)
    (replied : ∀ later nonce before res after, drawnKeys later = [] →
      (⟨before, .api (.send nonce sent), .ok res, after⟩ : AttestorStep) ∈ later →
        post (past ++ later) ((read res).mapError .storageApiError) after) :
    Always (World attestor lossy) (fun _ _ => True) good post past state
      (storage (StorageApiClient.request sent read)).run := by
  intro before _ answer after _
  refine ⟨asks _ _ _ _, ?_⟩
  have drawsNone : drawnKeys [(⟨before, .api .requestNonce, answer, after⟩ :
      AttestorStep)] = [] := rfl
  cases answer with
  | error error => exact failed _ error _ drawsNone
  | ok nonce =>
      intro before' _ answer' after' _
      refine ⟨sends _ _ _ _ _ drawsNone, ?_⟩
      have drawsNone' : drawnKeys ([(⟨before, .api .requestNonce, .ok nonce, after⟩ :
          AttestorStep)] ++ [⟨before', .api (.send nonce sent), answer', after'⟩]) = [] := rfl
      rw [List.append_assoc]
      cases answer' with
      | error error => exact failed _ error _ drawsNone'
      | ok res => exact replied _ nonce before' res after' drawsNone' (by simp)

theorem proper_other {call : AttestorCall} {step : AttestorStep}
    (other : ∀ nonce sent, step.request ≠ .api (.send nonce sent)) :
    Proper attestor call past step :=
  fun nonce sent request => absurd request (other nonce sent)

/-- The rule of reading the record of the event. -/
theorem always_getEvent {call : AttestorCall}
    {post : List AttestorStep → Except OracleError (Option Storage.Event) →
      AttestorState → Prop}
    (failed : ∀ later error after, drawnKeys later = [] →
      post (past ++ later) (.error error) after)
    (absent : ∀ later after, drawnKeys later = [] → post (past ++ later) (.ok none) after)
    (found : ∀ later row after, drawnKeys later = [] →
      ReadRow attestor call.uuid later row → post (past ++ later) (.ok (some row)) after) :
    Always (World attestor lossy) (fun _ _ => True) (Proper attestor call) post past state
      (storage (StorageApiClient.getEvent attestor.publicKey call.uuid)).run := by
  rw [getEvent_eq]
  refine always_storage (fun _ _ _ _ => proper_other (by simp)) ?_
    (fun later error after none => failed later _ after none) ?_
  · intro later nonce before answer after _ nonce' sent request
    cases request
    exact .inl rfl
  · intro later nonce before res after drawsNone member
    obtain ⟨status, body⟩ := res
    cases body with
    | events rows =>
        cases rows with
        | nil => exact absent later after drawsNone
        | cons row rows =>
            exact found later row after drawsNone
              ⟨before, nonce, status, rows, after, member⟩
    | _ => exact failed later _ after drawsNone

/-- Inserting what the call writes. -/
theorem always_insert {call : AttestorCall} {value : DbValue}
    (written : Written attestor call past value) :
    Always (World attestor lossy) (fun _ _ => True) (Proper attestor call)
      (fun _ _ _ => True) past state
      (insert attestor call.uuid (attestor.encodings.toJson value)).run := by
  have sets {sent : Storage.Call} {α : Type}
      {read : Storage.Response → Except ApiError α} {past : List AttestorStep}
      {state : AttestorState} (written : Written attestor call past value)
      (sets : Sets attestor call.uuid (attestor.encodings.content value) past sent) :
      Always (World attestor lossy) (fun _ _ => True) (Proper attestor call)
        (fun _ _ _ => True) past state
        (storage (StorageApiClient.request sent read)).run := by
    refine always_storage (fun _ _ _ _ => proper_other (by simp)) ?_
      (fun _ _ _ _ => trivial) fun _ _ _ _ _ _ _ => trivial
    intro later nonce before answer after drawsNone nonce' sent' request
    cases request
    exact .inr ⟨value, written.append drawsNone, sets.append later⟩
  refine (always_run_bind _ _).mpr (always_getEvent (fun _ _ _ _ => trivial) ?_ ?_)
  · intro later after drawsNone
    exact always_run_seq (sets (written.append drawsNone) .create) fun _ _ _ => trivial
  · intro later row after drawsNone read
    have found : ∃ row, ReadRow attestor call.uuid (past ++ later) row :=
      ⟨row, read.prepend past⟩
    exact always_run_seq (sets (written.append drawsNone) (.update found))
      fun _ _ _ => trivial

/-! ## Announcing -/

/-- Drawing keys. -/
theorem always_draw {good : List AttestorStep → AttestorStep → Prop}
    (draws : ∀ past before key after, good past ⟨before, .newSecretKey, key, after⟩)
    (places : List Nat) :
    Always (World attestor lossy) (fun _ _ => True) good
      (fun past' keys _ => drawnKeys past' = drawnKeys past ++ keys ∧
        keys.length = places.length) past state
      (places.mapM fun _ => perform AttestorRequest.newSecretKey) := by
  induction places generalizing past state with
  | nil => simpa using (always_pure _).mpr (by simp)
  | cons place places ih =>
      rw [always_mapM_cons]
      intro before _ key after _
      refine ⟨draws _ _ _ _, ih.post_mono ?_⟩
      rintro past' keys _ ⟨drawn, count⟩
      have one : drawnKeys [(⟨before, .newSecretKey, key, after⟩ : AttestorStep)] = [key] :=
        rfl
      refine ⟨?_, congrArg (· + 1) count⟩
      rw [drawn, drawnKeys_append, one, List.append_assoc, List.singleton_append]

theorem always_createEvent (uuid maturation chain : String) :
    Always (World attestor lossy) (fun _ _ => True)
      (Proper attestor (.createEvent uuid maturation chain)) (fun _ _ _ => True) []
      state (createEvent attestor uuid maturation chain).run := by
  unfold createEvent
  cases attestor.parseRfc3339 maturation with
  | none => trivial
  | some maturation =>
      dsimp only
      unfold buildAnnouncement generateNoncesForEvent eventDescriptor
      rw [bind_assoc, bind_assoc]
      refine (always_run_lift_bind _ _).mpr ((always_draw
        (fun _ _ _ _ => proper_other (by simp)) _).post_mono fun past keys _ drew => ?_)
      obtain ⟨drawn, -⟩ := drew
      rw [show drawnKeys ([] : List AttestorStep) = [] from rfl, List.nil_append] at drawn
      rw [pure_bind]
      dsimp only
      split_ifs with fits
      · rw [bind_assoc]
        refine (always_run_lift_bind _ _).mpr ?_
        intro before _ sig after _
        refine ⟨proper_other (by simp), ?_⟩
        rw [always_ret, pure_bind]
        dsimp only
        have drew : drawnKeys (past ++ [(⟨before, .signSchnorr _, sig, after⟩ :
            AttestorStep)]) = keys := by
          rw [drawnKeys_append, drawn]
          simp [drawnKeys]
        refine (always_run_lift_bind _ _).mpr
          ((always_insert (.created drew rfl)).post_mono fun _ result _ _ => ?_)
        rcases result with _ | _ | _ <;> trivial
      · trivial

/-! ## Attesting -/

theorem always_get {call : AttestorCall} :
    Always (World attestor lossy) (fun _ _ => True) (Proper attestor call)
      (fun past' result _ => ∀ text, result = .ok (some text) →
        ∃ row, ReadRow attestor call.uuid past' row ∧
          attestor.encodings.base64Decode row.content = .ok text)
      past state (get attestor call.uuid).run := by
  refine (always_run_bind _ _).mpr (always_getEvent ?_ ?_ ?_)
  · rintro _ _ _ _ _ ⟨⟩
  · rintro _ _ _ _ ⟨⟩
  · intro later row after _ read
    dsimp only
    cases decoded : attestor.encodings.base64Decode row.content with
    | error error => rintro _ ⟨⟩
    | ok res =>
        rintro _ ⟨⟩
        exact ⟨row, read.prepend past, decoded⟩

/-- Signing. -/
theorem always_sign {good : List AttestorStep → AttestorStep → Prop}
    (signs : ∀ past before message nonce answer after,
      good past ⟨before, .schnorrsigSignWithNonce message nonce, answer, after⟩)
    (pairs : List (String × SecretKey)) :
    Always (World attestor lossy) (fun _ _ => True) good
      (fun past' signatures _ => (∃ later, past' = past ++ later ∧ drawnKeys later = []) ∧
        signatures = pairs.map fun (message, nonce) =>
          attestor.schnorrsigSignWithNonce message nonce)
      past state
      (pairs.mapM fun (message, nonce) =>
        perform (AttestorRequest.schnorrsigSignWithNonce message nonce)) := by
  induction pairs generalizing past state with
  | nil => exact ⟨⟨[], by simp [drawnKeys]⟩, rfl⟩
  | cons pair pairs ih =>
      obtain ⟨message, nonce⟩ := pair
      rw [always_mapM_cons]
      intro before _ signature after served
      obtain rfl := served.1
      refine ⟨signs _ _ _ _ _ _, ih.post_mono ?_⟩
      rintro _ _ _ ⟨⟨later, rfl, drawsNone⟩, rfl⟩
      refine ⟨⟨_, List.append_assoc .., ?_⟩, rfl⟩
      rw [drawnKeys_append, drawsNone]
      rfl

theorem always_attest (uuid : String) (outcome : Nat) :
    Always (World attestor lossy) (fun _ _ => True) (Proper attestor (.attest uuid outcome))
      (fun _ _ _ => True) [] state (attest attestor uuid outcome).run := by
  obtain ⟨rest, split, attests, fails⟩ := attest_split attestor uuid outcome
  rw [split]
  refine (always_run_lift_bind _ _).mpr (always_get.post_mono fun past answer state read => ?_)
  by_cases attestable : ∃ text value nonces announcement nbDigits,
      answer = .ok (some text) ∧
        Attestable attestor text value nonces announcement nbDigits
  · obtain ⟨text, value, nonces, announcement, nbDigits, rfl, attestable⟩ := attestable
    obtain ⟨row, read, decoded⟩ := read text rfl
    rw [attests attestable]
    unfold attestValue buildAttestation
    refine (always_run_lift_bind _ _).mpr ((always_bind _ _).mpr ((always_sign
      (fun _ _ _ _ _ _ => proper_other (by simp)) _).post_mono ?_))
    rintro _ _ after ⟨⟨later, rfl, drawsNone⟩, rfl⟩
    refine (always_pure _).mpr ((always_run_lift_bind _ _).mpr ?_)
    have written := attestable.written outcome read decoded
    exact (always_insert (written.append drawsNone)).post_mono fun _ _ _ _ => trivial
  · obtain ⟨error, failed⟩ := fails answer attestable
    rw [failed]
    trivial

/-- Every step of a call is proper, whatever happens to the database meanwhile. -/
theorem always_call (call : AttestorCall) :
    Always (World attestor lossy) (fun _ _ => True) (Proper attestor call)
      (fun _ _ _ => True) [] state (call.run attestor).run := by
  cases call with
  | createEvent uuid maturation chain => exact always_createEvent uuid maturation chain
  | attest uuid outcome => exact always_attest uuid outcome

end Always

end WasmAttestor

end DlcStack
