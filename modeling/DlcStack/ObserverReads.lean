import DlcStack.EffectOnce
import DlcStack.EffectParties
import DlcStack.ObserverService

/-!
# What the clients of an observer read

Any calls of an observer overlap in any way, with requests to the storage lost.  An
event that is announced by one call only has one announcement: every client that reads
the event at any time gets it, and every attestation that clients get was made with its
nonces, for an outcome for which the event was to be attested.
-/

namespace DlcStack

open Storage (Json)

namespace ObserverService

open Program Clients WasmAttestor

/-! ## Calls that write once -/

/-- A request of the storage that sets nothing, or no request of it. -/
def OnlyReads (request : AttestorRequest) : Prop :=
  ∀ nonce sent, request = .api (.send nonce sent) → ∃ params, sent = .getEvents params

theorem once_request {α : Type} (sent : Storage.Call)
    (read : Storage.Response → Except ApiError α) :
    Once OnlyReads (storage (StorageApiClient.request sent read)).run := by
  refine .inl ⟨by rintro _ _ ⟨⟩, fun answer => ?_⟩
  cases answer with
  | error error => trivial
  | ok nonce =>
      refine .inr fun answer => ?_
      cases answer <;> trivial

theorem asks_getEvents {α : Type} (params : Storage.EventRequestParams)
    (read : Storage.Response → Except ApiError α) :
    Asks OnlyReads (storage (StorageApiClient.request (.getEvents params) read)).run := by
  refine ⟨by rintro _ _ ⟨⟩, fun answer => ?_⟩
  cases answer with
  | error error => trivial
  | ok nonce =>
      refine ⟨?_, fun answer => ?_⟩
      · rintro _ _ ⟨⟩
        exact ⟨params, rfl⟩
      · cases answer <;> trivial

theorem asks_getEvent {attestor : Attestor} (uuid : String) :
    Asks OnlyReads
      (storage (StorageApiClient.getEvent attestor.publicKey uuid)).run := by
  rw [getEvent_eq]
  exact asks_getEvents _ _

theorem once_insert {attestor : Attestor} (uuid newEvent : String) :
    Once OnlyReads (WasmAttestor.insert attestor uuid newEvent).run := by
  unfold WasmAttestor.insert
  apply (asks_getEvent uuid).once_run_bind
  intro event
  split_ifs
  · exact (once_request _ _).run_bind fun _ => asks_pure _
  · exact (once_request _ _).run_bind fun _ => asks_pure _

theorem asks_get {attestor : Attestor} (uuid : String) :
    Asks OnlyReads (WasmAttestor.get attestor uuid).run := by
  unfold WasmAttestor.get
  apply asks_run_bind (asks_getEvent uuid)
  intro event
  cases event with
  | none => trivial
  | some event =>
      dsimp only
      cases attestor.encodings.base64Decode event.content <;> trivial

theorem once_createEvent {attestor : Attestor} (uuid maturation chain : String) :
    Once OnlyReads (createEvent attestor uuid maturation chain).run := by
  unfold createEvent
  cases attestor.parseRfc3339 maturation with
  | none => trivial
  | some maturation =>
      dsimp only
      unfold buildAnnouncement generateNoncesForEvent eventDescriptor
      rw [bind_assoc, bind_assoc]
      have draws : Asks OnlyReads ((List.range 14).mapM fun _ =>
          perform AttestorRequest.newSecretKey : AttestorProgram (List SecretKey)) := by
        apply asks_mapM
        intro place
        exact asks_perform (by rintro _ _ ⟨⟩)
      refine draws.once_run_lift_bind fun keys => ?_
      rw [pure_bind]
      dsimp only
      split_ifs
      · rw [bind_assoc]
        refine (asks_perform (by rintro _ _ ⟨⟩)).once_run_lift_bind fun sig => ?_
        rw [pure_bind]
        apply (once_insert _ _).run_lift_bind
        rintro (error | _ | inserted) <;> exact asks_pure _
      · trivial

theorem once_attest {attestor : Attestor} (uuid : String) (outcome : Nat) :
    Once OnlyReads (attest attestor uuid outcome).run := by
  obtain ⟨rest, split, attests, fails⟩ := attest_split attestor uuid outcome
  rw [split]
  apply (asks_get uuid).once_run_lift_bind
  intro answer
  by_cases attestable : ∃ text value nonces announcement nbDigits,
      answer = .ok (some text) ∧
        Attestable attestor text value nonces announcement nbDigits
  · obtain ⟨text, value, nonces, announcement, nbDigits, rfl, attestable⟩ := attestable
    rw [attests attestable]
    unfold attestValue buildAttestation
    have signs : Asks OnlyReads (((binaryDigits nbDigits outcome).zip nonces).mapM
        fun pair => perform (AttestorRequest.schnorrsigSignWithNonce pair.1 pair.2) :
          AttestorProgram (List String)) := by
      apply asks_mapM
      intro pair
      exact asks_perform (by rintro _ _ ⟨⟩)
    refine (asks_bind signs fun _ => asks_pure _).once_run_lift_bind fun attestation => ?_
    exact (once_insert _ _).run_lift_bind fun _ => asks_pure _
  · obtain ⟨error, failed⟩ := fails answer attestable
    rw [failed]
    trivial

/-- A call of the attestor sets a record once. -/
theorem once_call {attestor : Attestor} (call : AttestorCall) :
    Once OnlyReads (call.run attestor).run := by
  cases call with
  | createEvent uuid maturation chain => exact once_createEvent uuid maturation chain
  | attest uuid outcome => exact once_attest uuid outcome

/-! ## What a call does -/

/-- The announcement of an event by the attestor, with a nonce for each digit. -/
structure AnnouncedWith (attestor : Attestor) (uuid : String) (nonces : List SecretKey)
    (announcement : WasmAttestor.OracleAnnouncement) : Prop where
  full : nonces.length = 14
  ownKey : announcement.oraclePublicKey = getPubkey attestor
  event : ∃ epoch, announcement.oracleEvent =
    ⟨nonces.map attestor.schnorrPublicKey, epoch, eventDescriptor, uuid⟩

/-- The record of an event before it is attested. -/
def createdValue (attestor : Attestor) (uuid chain : String) (nonces : List SecretKey)
    (announcement : WasmAttestor.OracleAnnouncement) : DbValue :=
  ⟨some nonces, attestor.encodings.encodeAnnouncement announcement, none, none, uuid,
    some chain⟩

/-- A step sets nothing, or it is the only one of the call that sets a record, and sets
it to a new record or to one that was read, with its attestation. -/
inductive Handled (attestor : Attestor) (call : ObserverCall) (past : List AttestorStep)
    (step : AttestorStep) : Prop
  | reads (free : OnlyReads step.request)
  | creates {uuid maturation chain nonce : String} {nonces : List SecretKey}
      {announcement : WasmAttestor.OracleAnnouncement} {sent : Storage.Call}
      (writes : call.writes = some (.createEvent uuid maturation chain))
      (request : step.request = .api (.send nonce sent))
      (announced : AnnouncedWith attestor uuid nonces announcement)
      (sets : Sets attestor uuid (attestor.encodings.content
        (createdValue attestor uuid chain nonces announcement)) past sent)
      (first : ∀ earlier ∈ past, OnlyReads earlier.request)
  | attests {uuid nonce : String} {outcome : Nat} {value : DbValue} {sent : Storage.Call}
      (writes : call.writes = some (.attest uuid outcome))
      (request : step.request = .api (.send nonce sent))
      (written : Written attestor (.attest uuid outcome) past value)
      (sets : Sets attestor uuid (attestor.encodings.content value) past sent)

/-- The event is shown as this, from a record that was read. -/
def Shows (service : ObserverService) (uuid : String) (past : List AttestorStep)
    (json : Json) : Prop :=
  ∃ row text event, ReadRow service.attestor uuid past row ∧
    service.attestor.encodings.base64Decode row.content = .ok text ∧
    parseDatabaseEntry service.attestor service.texts text = .ok event ∧
    event.toJson service.number = some json

/-- A step sets nothing, or sets the record to this value. -/
def SetsTo (attestor : Attestor) (uuid : String) (value : DbValue)
    (past : List AttestorStep) (step : AttestorStep) : Prop :=
  OnlyReads step.request ∨ ∃ nonce sent, step.request = .api (.send nonce sent) ∧
    Sets attestor uuid (attestor.encodings.content value) past sent

section Insert

variable {attestor : Attestor} {lossy : Prop} {past : List AttestorStep}
  {state : AttestorState} {uuid : String} {value : DbValue}

/-- A request that sets the record. -/
theorem always_sets {α : Type} {sent : Storage.Call}
    {read : Storage.Response → Except ApiError α}
    (sets : Sets attestor uuid (attestor.encodings.content value) past sent) :
    Always (World attestor lossy) (fun _ _ => True) (SetsTo attestor uuid value)
      (fun _ _ _ => True) past state
      (storage (StorageApiClient.request sent read)).run := by
  refine always_storage (fun _ _ _ _ => .inl (by rintro _ _ ⟨⟩)) ?_
    (fun _ _ _ _ => trivial) fun _ _ _ _ _ _ _ => trivial
  intro later nonce before answer after _
  exact .inr ⟨nonce, sent, rfl, sets.append later⟩

/-- Inserting the value. -/
theorem always_insert_sets :
    Always (World attestor lossy) (fun _ _ => True) (SetsTo attestor uuid value)
      (fun _ _ _ => True) past state
      (WasmAttestor.insert attestor uuid (attestor.encodings.toJson value)).run := by
  unfold WasmAttestor.insert
  have found : Always (World attestor lossy) (fun _ _ => True)
      (Proper attestor (.attest uuid 0))
      (fun past event _ => ∀ row, event = .ok (some row) → ∃ row, ReadRow attestor uuid past row)
      past state (storage (StorageApiClient.getEvent attestor.publicKey uuid)).run := by
    refine always_getEvent ?_ ?_ ?_
    · rintro _ _ _ _ _ ⟨⟩
    · rintro _ _ _ _ ⟨⟩
    · intro later row after _ read other _
      exact ⟨row, read.prepend past⟩
  have reads : Always (World attestor lossy) (fun _ _ => True) (SetsTo attestor uuid value)
      (fun _ _ _ => True) past state
      (storage (StorageApiClient.getEvent attestor.publicKey uuid)).run :=
    (asks_getEvent uuid).always_past (fun _ => True)
      (fun _ _ free _ => ⟨.inl free, trivial⟩) trivial
  refine (always_run_bind _ _).mpr ((reads.and found).mono (fun _ _ => And.left) ?_)
  rintro past (error | _ | row) state ⟨-, found⟩
  · trivial
  · exact always_run_seq (always_sets .create) fun _ _ _ => trivial
  · exact always_run_seq (always_sets (.update (found row rfl))) fun _ _ _ => trivial

/-- A step of `create_event` sets nothing, or sets the record to a new one. -/
def SetsNew (attestor : Attestor) (uuid chain : String) (past : List AttestorStep)
    (step : AttestorStep) : Prop :=
  ∃ nonces announcement, AnnouncedWith attestor uuid nonces announcement ∧
    SetsTo attestor uuid (createdValue attestor uuid chain nonces announcement) past step

/-- What `create_event` sets. -/
theorem always_createEvent_sets (maturation chain : String) :
    Always (World attestor lossy) (fun _ _ => True)
      (fun past step => OnlyReads step.request ∨ SetsNew attestor uuid chain past step)
      (fun _ _ _ => True) past state (createEvent attestor uuid maturation chain).run := by
  unfold createEvent
  cases attestor.parseRfc3339 maturation with
  | none => trivial
  | some maturation =>
      dsimp only
      unfold buildAnnouncement generateNoncesForEvent eventDescriptor
      rw [bind_assoc, bind_assoc]
      refine (always_run_lift_bind _ _).mpr ((always_draw ?_ _).post_mono ?_)
      · exact fun _ _ _ _ => .inl (by rintro _ _ ⟨⟩)
      · rintro past keys state ⟨-, count⟩
        rw [pure_bind]
        dsimp only
        split_ifs with fits
        · rw [bind_assoc]
          refine (always_run_lift_bind _ _).mpr ?_
          intro before _ sig after _
          refine ⟨.inl (by rintro _ _ ⟨⟩), ?_⟩
          rw [always_ret, pure_bind]
          dsimp only
          refine (always_run_lift_bind _ _).mpr (always_insert_sets.mono ?_ ?_)
          · intro past step sets
            exact .inr ⟨keys, _, ⟨by simpa using count, rfl, _, rfl⟩, sets⟩
          · rintro _ (error | _ | inserted) _ _ <;> trivial
        · trivial

end Insert

section Always

variable {service : ObserverService} {lossy : Prop} {past : List AttestorStep}
  {state : AttestorState}

/-- The attestor's part of a call. -/
theorem always_made {call : ObserverCall} {made : AttestorCall}
    (writes : call.writes = some made) :
    Always (World service.attestor lossy) (fun _ _ => True)
      (Handled service.attestor call) (fun _ _ _ => True) [] state
      (made.run service.attestor).run := by
  have first : Always (World service.attestor lossy) (fun _ _ => True)
      (FirstOfKind OnlyReads) (fun _ _ _ => True) [] state
      (made.run service.attestor).run :=
    (once_call made).always (by simp)
  cases made with
  | createEvent uuid maturation chain =>
      refine ((always_createEvent_sets maturation chain).and first).mono ?_
        fun _ _ _ _ => trivial
      rintro past step ⟨free | ⟨nonces, announcement, announced, free | sets⟩, free' | first⟩
      · exact .reads free
      · exact .reads free
      · exact .reads free
      · exact .reads free
      · exact .reads free'
      · obtain ⟨nonce, sent, request, sets⟩ := sets
        exact .creates writes request announced sets first
  | attest uuid outcome =>
      refine (always_attest uuid outcome).mono ?_ fun _ _ _ => id
      intro past step proper
      by_cases free : OnlyReads step.request
      · exact .reads free
      · unfold OnlyReads at free
        push Not at free
        obtain ⟨nonce, sent, request, writing⟩ := free
        rcases proper nonce sent request with rfl | ⟨value, written, sets⟩
        · exact absurd rfl (writing _)
        · exact .attests writes request written sets

/-- Reading is handled. -/
theorem always_reads {α : Type} {call : ObserverCall} {program : AttestorProgram α}
    (asks : Asks OnlyReads program) :
    Always (World service.attestor lossy) (fun _ _ => True)
      (Handled service.attestor call) (fun _ _ _ => True) past state program :=
  (asks.always_past (fun _ => True) (fun _ _ free _ => ⟨.reads free, trivial⟩)
    trivial).post_mono fun _ _ _ _ => trivial

theorem asks_wasm_getEvent (uuid : String) :
    Asks OnlyReads (WasmAttestor.getEvent service.attestor service.texts uuid).run := by
  unfold WasmAttestor.getEvent
  refine asks_run_lift_bind (asks_get uuid) fun answer => ?_
  rcases answer with error | _ | event
  · trivial
  · trivial
  · dsimp only
    cases parseDatabaseEntry service.attestor service.texts event <;> trivial

theorem asks_service_getEvent (uuid : String) : Asks OnlyReads (service.getEvent uuid) := by
  unfold getEvent
  refine asks_bind (asks_wasm_getEvent uuid) fun answer => ?_
  rcases answer with error | _ | event <;> exact asks_pure _

/-- The handlers of the chains log the event last. -/
theorem asks_logs (uuid : String) :
    Asks OnlyReads (do
      let _ ← service.getEvent uuid
      return .nothing : AttestorProgram Reply) :=
  asks_bind (asks_service_getEvent uuid) fun _ => asks_pure _

theorem asks_getAllEvents : Asks OnlyReads service.getAllEvents := by
  unfold getAllEvents getEvents getAll
  refine asks_bind (asks_run_lift_bind (asks_run_bind (asks_getEvents _ _) fun events => ?_)
    fun answer => ?_) fun _ => asks_pure _
  · cases events.mapM fun event => ((service.attestor.encodings.base64Decode
      event.content).mapError OracleError.base64DecodeError).map
        fun content => (event.eventId, content) <;> trivial
  · rcases answer with error | _ | events
    · trivial
    · trivial
    · dsimp only
      cases events.mapM fun event =>
          parseDatabaseEntry service.attestor service.texts event.2 with
      | error error => trivial
      | ok events =>
          dsimp only
          cases events.mapM (ApiOracleEvent.toJson service.number) <;> trivial

/-- What is shown of an event is of a record that was read. -/
theorem always_getEvent_shows (uuid : String) :
    Always (World service.attestor lossy) (fun _ _ => True) (fun _ _ => True)
      (fun past shown _ => ∀ json, shown = some json → service.Shows uuid past json)
      past state (service.getEvent uuid) := by
  unfold getEvent WasmAttestor.getEvent
  refine (always_bind _ _).mpr ((always_run_lift_bind _ _).mpr ?_)
  have got : Always (World service.attestor lossy) (fun _ _ => True)
      (Proper service.attestor (.attest uuid 0))
      (fun past answer _ => ∀ text, answer = .ok (some text) →
        ∃ row, ReadRow service.attestor uuid past row ∧
          service.attestor.encodings.base64Decode row.content = .ok text)
      past state (WasmAttestor.get service.attestor uuid).run :=
    always_get
  refine got.mono (fun _ _ _ => trivial) fun past answer state read => ?_
  rcases answer with error | _ | text
  · rintro json ⟨⟩
  · rintro json ⟨⟩
  · obtain ⟨row, read, decoded⟩ := read text rfl
    dsimp only
    cases parsed : parseDatabaseEntry service.attestor service.texts text with
    | error error => rintro json ⟨⟩
    | ok event => exact fun json shown => ⟨row, text, event, read, decoded, parsed, shown⟩

/-- The attestor's part of a call, and reading after it. -/
theorem always_made_bind {α : Type} {call : ObserverCall} {made : AttestorCall}
    (writes : call.writes = some made) {rest : Except String Unit → AttestorProgram α}
    (reads : ∀ result, Asks OnlyReads (rest result)) :
    Always (World service.attestor lossy) (fun _ _ => True)
      (Handled service.attestor call) (fun _ _ _ => True) [] state
      ((made.run service.attestor).run >>= rest) :=
  (always_bind _ _).mpr ((always_made writes).post_mono fun _ result _ _ =>
    always_reads (reads result))

/-- `createAttestation` in a call that attests so. -/
theorem always_createAttestation {call : ObserverCall} {uuid : String} {outcome : ℤ}
    {precisionShift : Nat}
    (writes : call.writes = (formatOutcome outcome precisionShift).map fun formattedOutcome =>
      .attest uuid (toU64 formattedOutcome)) :
    Always (World service.attestor lossy) (fun _ _ => True)
      (Handled service.attestor call) (fun _ _ _ => True) [] state
      (service.createAttestation uuid outcome precisionShift) := by
  unfold createAttestation
  cases formatted : formatOutcome outcome precisionShift with
  | none => trivial
  | some formattedOutcome =>
      rw [formatted] at writes
      refine always_made_bind writes fun result => ?_
      cases result <;> exact asks_pure _

/-- Every call handles its steps, and what a route shows was read. -/
theorem always_observerCall (call : ObserverCall) :
    Always (World service.attestor lossy) (fun _ _ => True)
      (Handled service.attestor call)
      (fun past reply _ => ∀ uuid json, call = .eventRoute uuid →
        reply = .event (some json) → service.Shows uuid past json)
      [] state (call.run service) := by
  cases call with
  | createDlc uuid maturation chain =>
      refine (always_bind _ _).mpr ((always_made_bind
        (rfl : ObserverCall.writes (.createDlc uuid maturation chain) =
          some (.createEvent uuid maturation chain)) fun result => ?_).post_mono ?_)
      · cases result <;> exact asks_pure _
      intro past _ state _
      refine (always_reads (asks_logs uuid)).post_mono ?_
      rintro _ _ _ _ _ _ ⟨⟩
  | closeDlc blockchain uuid outcome =>
      refine (always_bind _ _).mpr ((always_createAttestation rfl).post_mono ?_)
      intro past reply state _
      cases reply with
      | thrown => rintro _ _ ⟨⟩
      | _ =>
          refine (always_reads (asks_logs uuid)).post_mono ?_
          rintro _ _ _ _ _ _ ⟨⟩
  | createAnnouncementRoute uuid maturation chain =>
      refine (always_made_bind
        (rfl : ObserverCall.writes (.createAnnouncementRoute uuid maturation chain) =
          some (.createEvent uuid maturation chain)) fun result => ?_).post_mono ?_
      · cases result <;> exact asks_pure _
      · rintro _ _ _ _ _ _ ⟨⟩
  | createAttestationRoute uuid outcome =>
      refine (always_createAttestation rfl).post_mono ?_
      rintro _ _ _ _ _ _ ⟨⟩
  | eventRoute uuid =>
      refine (always_bind _ _).mpr (((always_reads (asks_service_getEvent uuid)).and
        (always_getEvent_shows uuid)).mono (fun _ _ => And.left) ?_)
      rintro past shown state ⟨-, shows⟩ _ json ⟨⟩ ⟨⟩
      exact shows json rfl
  | eventsRoute =>
      refine (always_bind _ _).mpr ((always_reads asks_getAllEvents).post_mono ?_)
      rintro _ _ _ _ _ _ ⟨⟩
  | publicKeyRoute => rintro _ _ ⟨⟩

end Always

/-! ## One announcement -/

abbrev ObserverPool (ι : Type) :=
  Pool ι AttestorState AttestorRequest AttestorRequest.Answer Reply

variable {ι : Type} {attestor : Attestor} {calls : ι → ObserverCall} {uuid : String}

/-- The values of a record that was created as this one: it itself, and what it is when
it is attested for an outcome for which a call attests it. -/
inductive Grown (attestor : Attestor) (calls : ι → ObserverCall) (uuid : String)
    (nonces : List SecretKey) (created : DbValue) : DbValue → Prop
  | created : Grown attestor calls uuid nonces created created
  | attested {index : ι} {outcome : Nat} (attests : (calls index).Attests uuid outcome) :
      Grown attestor calls uuid nonces created
        { created with
          outcome := some outcome
          attestation := some (attestor.encodings.encodeAttestation
            (attestationOf attestor nonces (binaryDigits 14 outcome))) }

/-- The row has such a value. -/
def RowGrown (attestor : Attestor) (calls : ι → ObserverCall) (uuid chain : String)
    (nonces : List SecretKey) (announcement : WasmAttestor.OracleAnnouncement)
    (row : Storage.Event) : Prop :=
  ∃ value, attestor.encodings.value? row.content = some value ∧
    Grown attestor calls uuid nonces
      (createdValue attestor uuid chain nonces announcement) value

/-- An event is not set and was never read, or a call has set it, and then its record and
everything that was read of it come from what that call set. -/
inductive Status (attestor : Attestor) (calls : ι → ObserverCall) (uuid : String)
    (pool : ObserverPool ι) (state : AttestorState) : Prop
  | unset
      (quiet : ∀ creator, (calls creator).Creates uuid →
        ∀ step ∈ (pool creator).past, OnlyReads step.request)
      (absent : state.db.events.find? (attestor.publicKey, uuid) = none)
      (unread : ∀ index row, ¬ ReadRow attestor uuid (pool index).past row)
  | set {creator : ι} {maturation chain : String} {nonces : List SecretKey}
      {announcement : WasmAttestor.OracleAnnouncement}
      (creates : (calls creator).writes = some (.createEvent uuid maturation chain))
      (sent : ∃ step ∈ (pool creator).past, ¬ OnlyReads step.request)
      (announced : AnnouncedWith attestor uuid nonces announcement)
      (stored : ∀ row, state.db.events.find? (attestor.publicKey, uuid) = some row →
        RowGrown attestor calls uuid chain nonces announcement row)
      (read : ∀ index row, ReadRow attestor uuid (pool index).past row →
        RowGrown attestor calls uuid chain nonces announcement row)

/-- Attesting a record that grew from this one, it stays so. -/
theorem RowGrown.attested {index : ι} {chain : String} {outcome : Nat}
    {nonces : List SecretKey} {announcement : WasmAttestor.OracleAnnouncement}
    {past : List AttestorStep} {value : DbValue} (roundTrip : attestor.encodings.RoundTrip)
    (announced : AnnouncedWith attestor uuid nonces announcement)
    (read : ∀ row, ReadRow attestor uuid past row →
      RowGrown attestor calls uuid chain nonces announcement row)
    (attests : (calls index).Attests uuid outcome)
    (written : Written attestor (.attest uuid outcome) past value) :
    Grown attestor calls uuid nonces
      (createdValue attestor uuid chain nonces announcement) value := by
  cases written with
  | @attested _ _ nbDigits _ row value nonces' announcement' isRead holds kept read' digits =>
      obtain ⟨other, found, grown⟩ := read row isRead
      rw [holds] at found
      obtain rfl := Option.some.inj found
      obtain ⟨epoch, event⟩ := announced.event
      have same : value.outstandingSkNonces = some nonces ∧
          value.announcement = attestor.encodings.encodeAnnouncement announcement := by
        cases grown <;> exact ⟨rfl, rfl⟩
      rw [same.1] at kept
      obtain rfl := Option.some.inj kept
      rw [same.2, roundTrip.announcement] at read'
      obtain rfl := Except.ok.inj read'
      rw [event] at digits
      obtain rfl : 14 = nbDigits := Option.some.inj digits
      cases grown <;> exact .attested attests

variable [DecidableEq ι]

/-- What a step reads of the event is its record. -/
theorem readRow_advance {lossy : Prop} {pool : ObserverPool ι} {index other : ι}
    {step : AttestorStep} {program : AttestorProgram Reply} {row : Storage.Event}
    (served : World attestor lossy step.before step.request step.answer step.after)
    (read : ReadRow attestor uuid (pool.advance index step program other).past row) :
    ReadRow attestor uuid (pool other).past row ∨
      OnlyReads step.request ∧
        step.before.db.events.find? (attestor.publicKey, uuid) = some row := by
  by_cases same : other = index
  · subst same
    rw [Pool.advance_same] at read
    obtain ⟨before, nonce, status, rows, after, member⟩ := read
    rcases List.mem_append.mp member with member | member
    · exact .inl ⟨before, nonce, status, rows, after, member⟩
    · obtain rfl := List.mem_singleton.mp member
      refine .inr ⟨?_, served.read_row⟩
      rintro _ _ ⟨⟩
      exact ⟨_, rfl⟩
  · rw [Pool.advance_other _ same] at read
    exact .inl read

/-- A request that sets a record leaves the others, and sets this one to its value if
it takes effect. -/
theorem find?_after_sets {lossy : Prop} {step : AttestorStep} {past : List AttestorStep}
    {nonce eventId content : String} {sent : Storage.Call}
    (served : World attestor lossy step.before step.request step.answer step.after)
    (request : step.request = .api (.send nonce sent))
    (sets : Sets attestor eventId content past sent) :
    step.after.db.events.find? (attestor.publicKey, uuid) =
        step.before.db.events.find? (attestor.publicKey, uuid) ∨
      uuid = eventId ∧ ∃ row,
        step.after.db.events.find? (attestor.publicKey, uuid) = some row ∧
          row.content = content := by
  obtain ⟨before, request', answer, after⟩ := step
  dsimp only at request served ⊢
  subst request
  rcases served.1 with ⟨_, same⟩ | ⟨_, same | same⟩
  · rw [same]
    exact find?_of_sets sets before.db uuid
  · rw [same]
    exact .inl rfl
  · rw [same]
    exact find?_of_sets sets before.db uuid

/-- A request that sets a record reads none. -/
theorem not_onlyReads_of_sets {step : AttestorStep} {past : List AttestorStep}
    {nonce eventId content : String} {sent : Storage.Call}
    (request : step.request = .api (.send nonce sent))
    (sets : Sets attestor eventId content past sent) : ¬ OnlyReads step.request := by
  intro free
  obtain ⟨params, rfl⟩ := free nonce sent request
  cases sets

/-- A step that leaves the record keeps the status, unless it is of a call that creates
the event and sets something. -/
theorem Status.keep {lossy : Prop} {pool : ObserverPool ι} {index : ι}
    {step : AttestorStep} (program : AttestorProgram Reply)
    (status : Status attestor calls uuid pool step.before)
    (served : World attestor lossy step.before step.request step.answer step.after)
    (same : step.after.db.events.find? (attestor.publicKey, uuid) =
      step.before.db.events.find? (attestor.publicKey, uuid))
    (quietStep : (calls index).Creates uuid → OnlyReads step.request) :
    Status attestor calls uuid (pool.advance index step program) step.after := by
  cases status with
  | unset quiet absent unread =>
      refine .unset ?_ (same.trans absent) ?_
      · intro creator creates earlier member
        exact Pool.forall_advance (fun place earlier isPast creates =>
          quiet place creates earlier isPast) quietStep creator earlier member creates
      · intro other row read
        rcases readRow_advance served read with read | ⟨-, found⟩
        · exact unread other row read
        · rw [absent] at found
          cases found
  | @set creator maturation chain nonces announcement creates sent announced stored read =>
      obtain ⟨first, member, writes⟩ := sent
      have stays : first ∈ (pool.advance index step program creator).past := by
        by_cases same : creator = index
        · subst same
          simp [member]
        · rwa [Pool.advance_other _ same]
      refine .set creates ⟨first, stays, writes⟩ announced (same ▸ stored) ?_
      intro other row isRead
      rcases readRow_advance served isRead with isRead | ⟨-, found⟩
      · exact read other row isRead
      · exact stored row found

/-- Every step keeps the status of an event that one call creates. -/
theorem Status.advance {lossy : Prop} {pool : ObserverPool ι} {index : ι}
    {step : AttestorStep} (program : AttestorProgram Reply)
    (roundTrip : attestor.encodings.RoundTrip)
    (single : ∀ first second, (calls first).Creates uuid → (calls second).Creates uuid →
      first = second)
    (status : Status attestor calls uuid pool step.before)
    (served : World attestor lossy step.before step.request step.answer step.after)
    (handled : Handled attestor (calls index) (pool index).past step) :
    Status attestor calls uuid (pool.advance index step program) step.after := by
  -- a step that sets a record reads nothing
  have unchanged {other : ι} {row : Storage.Event} (writes : ¬ OnlyReads step.request)
      (read : ReadRow attestor uuid (pool.advance index step program other).past row) :
      ReadRow attestor uuid (pool other).past row :=
    (readRow_advance served read).resolve_right fun isRead => writes isRead.1
  cases handled with
  | reads free =>
      refine status.keep program served ?_ fun _ => free
      rw [served.db_unchanged free]
  | @creates eventId maturation chain nonce nonces announcement sent creates request
      announced sets first =>
      have writes := not_onlyReads_of_sets request sets
      by_cases own : uuid = eventId
      · subst own
        cases status with
        | unset quiet absent unread =>
            refine .set creates ⟨step, by simp, writes⟩ announced ?_ ?_
            · intro row found
              rcases find?_after_sets served request sets with same | ⟨-, row', found', content⟩
              · rw [same, absent] at found
                cases found
              · rw [found] at found'
                obtain rfl := Option.some.inj found'
                exact ⟨_, by rw [content, roundTrip.value?_content], .created⟩
            · exact fun other row read => absurd (unchanged writes read) (unread other row)
        | set created sent =>
            obtain rfl := single _ index ⟨_, _, created⟩ ⟨_, _, creates⟩
            obtain ⟨earlier, member, writes⟩ := sent
            exact absurd (first earlier member) writes
      · refine status.keep program served ?_ ?_
        · exact (find?_after_sets served request sets).resolve_right fun found => own found.1
        · rintro ⟨_, _, createsOwn⟩
          rw [creates] at createsOwn
          cases createsOwn
          exact absurd rfl own
  | @attests eventId nonce outcome value sent attests request written sets =>
      have writes := not_onlyReads_of_sets request sets
      have notCreates : ¬ (calls index).Creates uuid := by
        rintro ⟨_, _, creates⟩
        rw [attests] at creates
        cases creates
      by_cases own : uuid = eventId
      · subst own
        cases status with
        | unset quiet absent unread =>
            cases written with
            | attested isRead => exact absurd isRead (unread index _)
        | @set creator maturation chain nonces announcement creates sent announced stored
            read =>
            have grown := RowGrown.attested roundTrip announced (read index) attests written
            rcases find?_after_sets served request sets with same | ⟨-, row, found, content⟩
            · exact Status.keep program (.set creates sent announced stored read) served same
                fun creates => absurd creates notCreates
            · obtain ⟨earlier, member, writes'⟩ := sent
              have different : creator ≠ index := by
                rintro rfl
                exact notCreates ⟨_, _, creates⟩
              refine .set creates ⟨earlier, ?_, writes'⟩ announced ?_ ?_
              · rwa [Pool.advance_other _ different]
              · intro row' found'
                rw [found] at found'
                obtain rfl := Option.some.inj found'
                exact ⟨value, by rw [content, roundTrip.value?_content], grown⟩
              · exact fun other row isRead => read other row (unchanged writes isRead)
      · refine status.keep program served ?_ fun creates => absurd creates notCreates
        exact (find?_after_sets served request sets).resolve_right fun found => own found.1

/-- Along every interleaving of the calls of an observer, from an empty database. -/
theorem interleaved_status {service : ObserverService}
    (roundTrip : service.attestor.encodings.RoundTrip)
    (single : ∀ first second, (calls first).Creates uuid → (calls second).Creates uuid →
      first = second)
    {drawn : List SecretKey} {trace : List (ι × AttestorStep)} {pool : ObserverPool ι}
    {reached : AttestorState}
    (history : Interleaved (World service.attestor True) AnyStep
      (fun index => Thread.start ((calls index).run service)) ⟨.empty, drawn⟩ trace pool
      reached) :
    Status service.attestor calls uuid pool reached := by
  refine history.invariant (Status service.attestor calls uuid)
    (fun index state => always_observerCall (calls index)) ?_ ?_
  · refine .unset ?_ ?_ ?_
    · intro creator _ step member
      cases member
    · exact UniqueTable.find?_empty ..
    · rintro index row ⟨_, _, _, _, _, member⟩
      cases member
  · intro current index step program status _ served _ handled _
    exact status.advance program roundTrip single served handled

/-! ## What is read -/

/-- What a client reads of an event: its announcement, the chain that it was created for,
and no attestation, or one for an outcome for which a call attests the event. -/
structure ReadsFrom (service : ObserverService) (calls : ι → ObserverCall)
    (client : AttestorClient) (uuid : String) (nonces : List SecretKey)
    (announcement : WasmAttestor.OracleAnnouncement) : Prop where
  announced : AnnouncedWith service.attestor uuid nonces announcement
  seen : client.getAnnouncement uuid = some (.ok (AttestorClient.seen announcement))
  chain : ∃ creator maturation chain,
    (calls creator).writes = some (.createEvent uuid maturation chain) ∧
      client.getChain uuid = .ok chain
  attestation :
    client.getAttestation uuid =
        some (.error (.oracleError ("missing attestation for event " ++ uuid))) ∨
      ∃ attester outcome, (calls attester).Attests uuid outcome ∧
        client.getAttestation uuid = some (.ok
          (attestationOf service.attestor nonces (binaryDigits 14 outcome))) ∧
        (outcome < 2 ^ 14 → DenotesWith service.attestor outcome nonces announcement
          (attestationOf service.attestor nonces (binaryDigits 14 outcome)))

/-- The record of an announced event is coherent. -/
theorem AnnouncedWith.coherent {nonces : List SecretKey}
    {announcement : WasmAttestor.OracleAnnouncement}
    (roundTrip : attestor.encodings.RoundTrip)
    (announced : AnnouncedWith attestor uuid nonces announcement) (chain : String) :
    CoherentWith attestor uuid (createdValue attestor uuid chain nonces announcement)
      nonces announcement := by
  obtain ⟨epoch, event⟩ := announced.event
  refine ⟨rfl, rfl, roundTrip.announcement _, ?_, ?_, ?_, rfl⟩ <;> rw [event]

/-- In every interleaving of the calls of an observer, with any requests lost, in which
at most one call creates the event, every client that is shown the event reads one and the
same announcement, and attestations made with the nonces of that announcement. -/
theorem interleaved_reads_announcement {service : ObserverService}
    (roundTrip : service.attestor.encodings.RoundTrip)
    (single : ∀ first second, (calls first).Creates uuid → (calls second).Creates uuid →
      first = second)
    {drawn : List SecretKey} {trace : List (ι × AttestorStep)} {pool : ObserverPool ι}
    {reached : AttestorState}
    (history : Interleaved (World service.attestor True) AnyStep
      (fun index => Thread.start ((calls index).run service)) ⟨.empty, drawn⟩ trace pool
      reached) :
    ∃ nonces announcement, ∀ reader json, calls reader = .eventRoute uuid →
      (pool reader).program = ret (.event (some json)) →
      ∀ client : AttestorClient, client.ReadsMessagesOf service.attestor →
        client.respond (client.eventPath uuid) = .ok json →
          ReadsFrom service calls client uuid nonces announcement := by
  have shows (reader : ι) (json : Json) (reads : calls reader = .eventRoute uuid)
      (returned : (pool reader).program = ret (.event (some json))) :
      service.Shows uuid (pool reader).past json := by
    have locally : (pool reader).Locally (World service.attestor True)
        (Handled service.attestor (calls reader))
        (fun past reply => ∀ uuid json, calls reader = .eventRoute uuid →
          reply = .event (some json) → service.Shows uuid past json) :=
      history.locally (fun index state => always_observerCall (calls index)) reader
    exact locally.of_ret reached returned uuid json reads rfl
  cases interleaved_status roundTrip single history with
  | unset quiet absent unread =>
      refine ⟨[], ⟨"", "", ⟨[], 0, eventDescriptor, ""⟩⟩, ?_⟩
      intro reader json reads returned
      obtain ⟨row, text, event, read, -⟩ := shows reader json reads returned
      exact absurd read (unread reader row)
  | @set creator maturation chain nonces announcement creates sent announced stored read =>
      refine ⟨nonces, announcement, ?_⟩
      intro reader json reads returned client readsMessages answered
      obtain ⟨row, text, event, isRead, decoded, parsed, shown⟩ :=
        shows reader json reads returned
      obtain ⟨value, holds, grown⟩ := read reader row isRead
      obtain ⟨text', decoded', isValue⟩ := text_of_value? holds
      rw [decoded] at decoded'
      obtain rfl := Except.ok.inj decoded'
      obtain ⟨encoded, attested, -, named⟩ := parseDatabaseEntry_shows isValue parsed
      refine ⟨announced, ?_, ⟨creator, maturation, chain, creates, ?_⟩, ?_⟩
      · refine client.getAnnouncement_of_shown readsMessages answered shown ?_
        rw [encoded]
        cases grown <;> rfl
      · refine client.getChain_of_shown answered shown ?_
        rw [named]
        cases grown <;> rfl
      · cases grown with
        | created => exact .inl (client.getAttestation_of_unattested answered shown attested)
        | @attested attester outcome attests =>
            refine .inr ⟨attester, outcome, attests, ?_, ?_⟩
            · exact client.getAttestation_of_shown readsMessages answered shown attested
            · exact denotesWith_attestationOf (announced.coherent roundTrip chain)
                announced.full

/-! ## An event that is created, attested and read -/

def oracleAttestationCodec : TextCodec OracleAttestation :=
  (TextCodec.string.pair (TextCodec.string.list.pair TextCodec.string.list)).via
    (fun attestation => (attestation.oraclePublicKey, attestation.signatures,
      attestation.outcomes))
    (fun fields => ⟨fields.1, fields.2.1, fields.2.2⟩)
    (fun _ => rfl)

/-- The attestation of the outcome with the first nonces. -/
def sampleAttestation (outcome : Nat) : OracleAttestation :=
  attestationOf sampleAttestor (sampleNonces 0) (binaryDigits 14 outcome)

/-- One outcome that is shown, and one that JavaScript has no number for. -/
def sampleOutcomes : List Nat :=
  [8192, 9007199254740992]

def sampleAttestationCodec : TextCodec OracleAttestation :=
  oracleAttestationCodec.short (sampleOutcomes.map sampleAttestation)

def sampleAnnouncementCodec : TextCodec WasmAttestor.OracleAnnouncement :=
  oracleAnnouncementCodec.short [sampleAnnouncement 0]

/-- The record after it was attested. -/
def sampleAttestedValue (outcome : Nat) : DbValue :=
  { sampleCreated 0 0 with
    attestation := some (sampleAttestationCodec.toBytes (sampleAttestation outcome))
    outcome := some outcome }

def sampleValues : List DbValue :=
  sampleCreated 0 0 :: sampleOutcomes.map sampleAttestedValue

def sampleObserver : ObserverService where
  attestor :=
    { sampleAttestor with
      encodings :=
        { sampleEncodings [sampleAnnouncement 0] sampleValues with
          encodeAttestation := sampleAttestationCodec.toBytes } }
  texts := sampleTexts
  number := safeInteger

/-- A client that was answered with this event. -/
def sampleReader (json : Json) : AttestorClient where
  host := "http://attestor/"
  respond _ := .ok json
  display _ := "error"
  readAnnouncement bytes :=
    (sampleAnnouncementCodec.readBytes bytes).toOption.map AttestorClient.seen
  readAttestation bytes := (sampleAttestationCodec.readBytes bytes).toOption

theorem sampleReader_reads (json : Json) :
    (sampleReader json).ReadsMessagesOf sampleObserver.attestor where
  announcement announcement := by
    change ((sampleAnnouncementCodec.readBytes
      (sampleAnnouncementCodec.toBytes announcement)).toOption.map AttestorClient.seen) = _
    rw [TextCodec.readBytes_toBytes]
    rfl
  attestation attestation := by
    change (sampleAttestationCodec.readBytes
      (sampleAttestationCodec.toBytes attestation)).toOption = _
    rw [TextCodec.readBytes_toBytes]
    rfl

def sampleObserverCalls : Nat → ObserverCall
  | 0 => .createDlc "uuid" "maturation" "chain"
  | 1 => .createAttestationRoute "uuid" 18446744073709559808
  | 2 => .createAttestationRoute "uuid" 9007199254740992
  | _ => .eventRoute "uuid"

def sampleObserverPool : ObserverPool Nat :=
  fun index => Thread.start ((sampleObserverCalls index).run sampleObserver)

/-- The event is created, and while it is logged it is attested, and then read. -/
def sampleObserverTurns : List Nat :=
  List.replicate 20 0 ++ List.replicate 20 1 ++ [3, 0, 3]

def sampleObserved : ObserverPool Nat × AttestorState :=
  sampleObserverPool.schedule (serve sampleObserver.attestor) sampleObserverTurns sampleStart

/-- The call has returned an event with an attestation. -/
def returnsAttested : AttestorProgram Reply → Bool
  | .ret (.event (some json)) => (json.index "rust_attestation").asStr.isSome
  | _ => false

theorem exists_of_returnsAttested {program : AttestorProgram Reply}
    (returns : returnsAttested program = true) :
    ∃ json, program = ret (.event (some json)) ∧
      (json.index "rust_attestation").asStr.isSome = true := by
  unfold returnsAttested at returns
  split at returns
  · exact ⟨_, rfl, returns⟩
  · cases returns

theorem returnsAttested_sampleObserved :
    returnsAttested (sampleObserved.1 3).program = true := by
  decide +kernel

theorem sampleObserver_roundTrip : sampleObserver.attestor.encodings.RoundTrip :=
  have plain := sampleEncodings_roundTrip [sampleAnnouncement 0] sampleValues
  ⟨plain.announcement, plain.json, plain.base64⟩

theorem interleaved_sampleObserved :
    Interleaved (World sampleObserver.attestor True) AnyStep sampleObserverPool sampleStart
      ([] ++ sampleObserverPool.trace (serve sampleObserver.attestor) sampleObserverTurns
        sampleStart) sampleObserved.1 sampleObserved.2 :=
  interleaved_schedule (serve sampleObserver.attestor)
    (world_serve sampleObserver.attestor True) sampleObserverTurns
    (metAlong_anyStep _ _ sampleObserverPool sampleStart) .idle

theorem interleaved_reads_announcement_sampleObserved :
    ∃ nonces announcement json,
      (sampleObserved.1 3).program = ret (.event (some json)) ∧
      (json.index "rust_attestation").asStr.isSome = true ∧
      ReadsFrom sampleObserver sampleObserverCalls (sampleReader json) "uuid" nonces
        announcement := by
  have only (index : Nat) (creates : (sampleObserverCalls index).Creates "uuid") :
      index = 0 := by
    obtain ⟨_, _, writes⟩ := creates
    match index with
    | 0 => rfl
    | 1 | 2 =>
        obtain ⟨_, -, attests⟩ := Option.map_eq_some_iff.mp writes
        cases attests
    | _ + 3 => cases writes
  obtain ⟨nonces, announcement, reads⟩ :=
    interleaved_reads_announcement sampleObserver_roundTrip
      (fun first second isFirst isSecond =>
        (only first isFirst).trans (only second isSecond).symm) interleaved_sampleObserved
  obtain ⟨json, returned, attested⟩ := exists_of_returnsAttested returnsAttested_sampleObserved
  exact ⟨nonces, announcement, json, returned, attested,
    reads 3 json rfl returned _ (sampleReader_reads json) rfl⟩

end ObserverService

end DlcStack
