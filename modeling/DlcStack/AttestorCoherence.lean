import DlcStack.AttestorSteps
import DlcStack.EffectSimulation

/-!
# Coherent records

Every record of an attestor stays what one announcement and at most one
attestation made it, however its calls overlap and whatever becomes of their
requests: a call never writes parts of different records.
-/

namespace DlcStack

namespace WasmAttestor

open Program Clients

/-- The value is that of the event with these secret nonces and this announcement:
the announced nonces are those of the secret ones, position by position, and it is
attested with its outcome if it has one. -/
structure CoherentWith (attestor : Attestor) (eventId : String) (value : DbValue)
    (nonces : List SecretKey) (announcement : OracleAnnouncement) : Prop where
  named : value.uuid = eventId
  kept : value.outstandingSkNonces = some nonces
  announced :
    attestor.encodings.readAnnouncement value.announcement = .ok announcement
  sameEvent : announcement.oracleEvent.eventId = eventId
  described : announcement.oracleEvent.eventDescriptor = eventDescriptor
  corresponding :
    announcement.oracleEvent.oracleNonces = nonces.map attestor.schnorrPublicKey
  attested : value.attestation = value.outcome.map fun outcome =>
    attestor.encodings.encodeAttestation
      (attestationOf attestor nonces (binaryDigits 14 outcome))

def Coherent (attestor : Attestor) (eventId : String) (value : DbValue) : Prop :=
  ∃ nonces announcement, CoherentWith attestor eventId value nonces announcement

/-- The content of the row decodes to a coherent value. -/
def CoherentRow (attestor : Attestor) (eventId : String) (row : Storage.Event) : Prop :=
  ∃ value, attestor.encodings.value? row.content = some value ∧
    Coherent attestor eventId value

/-- The content of the row decodes to a value of which the condition holds. -/
def RowHolds (attestor : Attestor) (holds : String → DbValue → Prop) (eventId : String)
    (row : Storage.Event) : Prop :=
  ∃ value, attestor.encodings.value? row.content = some value ∧ holds eventId value

/-- The condition holds of all records of the attestor. -/
def RowsHold (attestor : Attestor) (holds : String → DbValue → Prop)
    (db : Storage.Database) : Prop :=
  ∀ eventId row, db.events.find? (attestor.publicKey, eventId) = some row →
    RowHolds attestor holds eventId row

/-- All records of the attestor are coherent. -/
def CoherentRows (attestor : Attestor) (db : Storage.Database) : Prop :=
  ∀ eventId row, db.events.find? (attestor.publicKey, eventId) = some row →
    CoherentRow attestor eventId row

/-- What a call writes is coherent when what it read was. -/
theorem Written.coherent {attestor : Attestor} {call : AttestorCall}
    {steps : List AttestorStep} {value : DbValue}
    (roundTrip : attestor.encodings.RoundTrip)
    (written : Written attestor call steps value)
    (readCoherent : ∀ row, ReadRow attestor call.uuid steps row →
      CoherentRow attestor call.uuid row) :
    Coherent attestor call.uuid value := by
  cases written with
  | @created uuid maturation chain steps nonces announcement epoch drew announces =>
      refine ⟨nonces, announcement, rfl, rfl, roundTrip.announcement _, ?_, ?_, ?_, rfl⟩ <;>
        rw [announces]
      rfl
  | @attested uuid outcome nbDigits steps row value nonces announcement read holds kept
      announced digits =>
      obtain ⟨other, found, nonces', announcement', coherent⟩ := readCoherent row read
      rw [holds] at found
      obtain rfl := Option.some.inj found
      have sameNonces := coherent.kept
      rw [kept] at sameNonces
      obtain rfl := Option.some.inj sameNonces
      have sameAnnouncement := coherent.announced
      rw [announced] at sameAnnouncement
      obtain rfl := Except.ok.inj sameAnnouncement
      rw [coherent.described] at digits
      obtain rfl : 14 = nbDigits := Option.some.inj digits
      exact ⟨nonces, announcement, coherent.named, kept, announced, coherent.sameEvent,
        coherent.described, coherent.corresponding, rfl⟩

theorem respond_createEvent_snd (db : Storage.Database) (event : Storage.NewEvent) :
    ((Storage.Call.createEvent event).respond db).2 = (db.createEvent event).2 := by
  simp only [Storage.Call.respond, Storage.Handlers.createEvent]
  split <;> simp_all

theorem respond_updateEvent_snd (db : Storage.Database) (event : Storage.UpdateEvent) :
    ((Storage.Call.updateEvent event).respond db).2 = (db.updateEvent event).2 := by
  simp only [Storage.Call.respond, Storage.Handlers.updateEvent]

/-- A request that sets a record touches no other, and its content is what the
record then holds, if the record changes. -/
theorem find?_of_sets {attestor : Attestor} {uuid content : String}
    {past : List AttestorStep} {sent : Storage.Call}
    (sets : Sets attestor uuid content past sent)
    (db : Storage.Database) (eventId : String) :
    (sent.respond db).2.events.find? (attestor.publicKey, eventId) =
        db.events.find? (attestor.publicKey, eventId) ∨
      eventId = uuid ∧ ∃ row,
        (sent.respond db).2.events.find? (attestor.publicKey, eventId) = some row ∧
          row.content = content := by
  cases sets with
  | update _ =>
      rw [respond_updateEvent_snd, Storage.Database.find?_updateEvent]
      split_ifs with same
      · cases found : db.events.find? (attestor.publicKey, eventId) with
        | none => exact .inl rfl
        | some row => exact .inr ⟨(Prod.mk.inj same).2, _, rfl, rfl⟩
      · exact .inl rfl
  | create =>
      rw [respond_createEvent_snd, Storage.Database.find?_createEvent]
      cases db.events.find? (attestor.publicKey, uuid) with
      | some row => exact .inl rfl
      | none =>
          dsimp only
          split_ifs with same
          · exact .inr ⟨(Prod.mk.inj same).2, _, rfl, rfl⟩
          · exact .inl rfl

section RowsHold

variable {attestor : Attestor} {holds : String → DbValue → Prop}

theorem RowsHold.set {uuid : String} {value : DbValue} {past : List AttestorStep}
    {sent : Storage.Call} {db : Storage.Database} (rows : RowsHold attestor holds db)
    (roundTrip : attestor.encodings.RoundTrip) (valueHolds : holds uuid value)
    (sets : Sets attestor uuid (attestor.encodings.content value) past sent) :
    RowsHold attestor holds (sent.respond db).2 := by
  intro eventId row found
  rcases find?_of_sets sets db eventId with same | ⟨rfl, other, stored, content⟩
  · exact rows eventId row (same ▸ found)
  · rw [stored] at found
    obtain rfl := Option.some.inj found
    exact ⟨value, by rw [content, roundTrip.value?_content], valueHolds⟩

/-- The condition holds of the records, and of everything that a call has read. -/
structure AllHold {ι : Type} (attestor : Attestor) (holds : String → DbValue → Prop)
    (pool : Pool ι AttestorState AttestorRequest AttestorRequest.Answer
      (Except String Unit)) (state : AttestorState) : Prop where
  stored : RowsHold attestor holds state.db
  read : ∀ index uuid row, ReadRow attestor uuid (pool index).past row →
    RowHolds attestor holds uuid row

/-- A step reads, or sets a record to a value of which the condition holds if it holds of
what the call has read. -/
def Upholds (attestor : Attestor) (holds : String → DbValue → Prop) (call : AttestorCall)
    (past : List AttestorStep) (step : AttestorStep) : Prop :=
  ∀ nonce sent, step.request = .api (.send nonce sent) →
    sent = .getEvents ⟨attestor.publicKey, some call.uuid⟩ ∨
      ∃ value, ((∀ row, ReadRow attestor call.uuid past row →
          RowHolds attestor holds call.uuid row) → holds call.uuid value) ∧
        Sets attestor call.uuid (attestor.encodings.content value) past sent

end RowsHold

/-- A request that is no write leaves the records. -/
theorem World.db_unchanged {attestor : Attestor} {lossy : Prop}
    {before after : AttestorState} {request : AttestorRequest} {answer : request.Answer}
    (served : World attestor lossy before request answer after)
    (reads : ∀ nonce sent, request = .api (.send nonce sent) →
      ∃ params, sent = .getEvents params) : after.db = before.db := by
  cases request with
  | newSecretKey => rw [served]
  | signSchnorr event => rw [served]
  | schnorrsigSignWithNonce message nonce => rw [served.2]
  | api request =>
      cases request with
      | requestNonce => exact served.1
      | send nonce sent =>
          obtain ⟨params, rfl⟩ := reads nonce sent rfl
          rcases served.1 with ⟨_, same⟩ | ⟨_, same | same⟩ <;> exact same

/-- The record that is read is the stored one. -/
theorem World.read_row {attestor : Attestor} {lossy : Prop} {before after : AttestorState}
    {nonce uuid : String} {status : Storage.StatusCode} {row : Storage.Event}
    {rows : List Storage.Event}
    (served : World attestor lossy before
      (.api (.send nonce (.getEvents ⟨attestor.publicKey, some uuid⟩)))
      (.ok ⟨status, .events (row :: rows)⟩) after) :
    before.db.events.find? (attestor.publicKey, uuid) = some row := by
  rcases served.1 with ⟨answered, _⟩ | ⟨⟨_, failed⟩, _⟩
  · have listed : (row :: rows) =
        (before.db.events.find? (attestor.publicKey, uuid)).toList := by
      have body := congrArg (Except.map Storage.Response.body) answered
      simp only [Except.map, Storage.Call.respond, Storage.Handlers.getEvents,
        Except.ok.injEq, Storage.Body.events.injEq,
        Storage.Database.getEvents_one] at body
      exact body
    cases found : before.db.events.find? (attestor.publicKey, uuid) with
    | none => simp [found] at listed
    | some stored =>
        rw [found] at listed
        exact congrArg some (List.cons.inj listed).1.symm
  · cases failed

theorem AllHold.advance {ι : Type} [DecidableEq ι] {attestor : Attestor}
    {holds : String → DbValue → Prop}
    (roundTrip : attestor.encodings.RoundTrip) {lossy : Prop} {call : AttestorCall}
    {pool : Pool ι AttestorState AttestorRequest AttestorRequest.Answer
      (Except String Unit)} {index : ι} {step : AttestorStep}
    (program : AttestorProgram (Except String Unit))
    (all : AllHold attestor holds pool step.before)
    (served : World attestor lossy step.before step.request step.answer step.after)
    (upholds : Upholds attestor holds call (pool index).past step) :
    AllHold attestor holds (pool.advance index step program) step.after := by
  constructor
  · by_cases reads : ∀ nonce sent, step.request = .api (.send nonce sent) →
        ∃ params, sent = .getEvents params
    · rw [served.db_unchanged reads]
      exact all.stored
    · push Not at reads
      obtain ⟨nonce, sent, request, writes⟩ := reads
      rcases upholds nonce sent request with rfl | ⟨value, valueHolds, sets⟩
      · exact absurd rfl (writes _)
      · obtain ⟨before, request', answer, after⟩ := step
        dsimp only at request served all ⊢
        subst request
        have kept := all.stored.set roundTrip
          (valueHolds fun row => all.read index _ row) sets
        rcases served.1 with ⟨_, same⟩ | ⟨_, same | same⟩
        · rw [same]
          exact kept
        · rw [same]
          exact all.stored
        · rw [same]
          exact kept
  · intro other uuid row read
    by_cases same : other = index
    · subst same
      rw [Pool.advance_same] at read
      obtain ⟨before, nonce, status, rows, after, member⟩ := read
      rcases List.mem_append.mp member with member | member
      · exact all.read other uuid row ⟨before, nonce, status, rows, after, member⟩
      · obtain rfl := List.mem_singleton.mp member
        exact all.stored uuid row served.read_row
    · rw [Pool.advance_other _ same] at read
      exact all.read other uuid row read

/-- Along every interleaving of calls whose steps uphold a condition, it holds of the
attestor's records. -/
theorem interleaved_rowsHold {ι : Type} [DecidableEq ι] {attestor : Attestor}
    (roundTrip : attestor.encodings.RoundTrip) (calls : ι → AttestorCall)
    {holds : String → DbValue → Prop}
    (upholds : ∀ call state, Always (World attestor True) (fun _ _ => True)
      (Upholds attestor holds call) (fun _ _ _ => True) [] state (call.run attestor).run)
    {start final : AttestorState} {trace : List (ι × AttestorStep)}
    {pool : Pool ι AttestorState AttestorRequest AttestorRequest.Answer
      (Except String Unit)}
    (initially : RowsHold attestor holds start.db)
    (run : Interleaved (World attestor True) AnyStep
      (fun index => Thread.start ((calls index).run attestor).run) start trace pool
      final) :
    RowsHold attestor holds final.db := by
  have kept := run.invariant (AllHold attestor holds)
    (fun index state => upholds (calls index) state) ⟨initially, ?_⟩ ?_
  · exact kept.stored
  · rintro index uuid row ⟨_, _, _, _, _, member⟩
    cases member
  · intro current index step program all _ served _ upholds _
    exact all.advance roundTrip program served upholds

/-- What a call writes is coherent if what it has read is. -/
theorem Proper.upholds {attestor : Attestor} (roundTrip : attestor.encodings.RoundTrip)
    {call : AttestorCall} {past : List AttestorStep} {step : AttestorStep}
    (proper : Proper attestor call past step) :
    Upholds attestor (Coherent attestor) call past step := by
  intro nonce sent request
  refine (proper nonce sent request).imp_right ?_
  rintro ⟨value, written, sets⟩
  exact ⟨value, written.coherent roundTrip, sets⟩

/-- Along every interleaving of calls of one attestor, with any requests lost, its
records are coherent. -/
theorem interleaved_coherent {ι : Type} [DecidableEq ι] {attestor : Attestor}
    (roundTrip : attestor.encodings.RoundTrip) (calls : ι → AttestorCall)
    {start final : AttestorState} {trace : List (ι × AttestorStep)}
    {pool : Pool ι AttestorState AttestorRequest AttestorRequest.Answer
      (Except String Unit)}
    (initially : CoherentRows attestor start.db)
    (run : Interleaved (World attestor True) AnyStep
      (fun index => Thread.start ((calls index).run attestor).run) start trace pool
      final) :
    CoherentRows attestor final.db := by
  exact interleaved_rowsHold roundTrip calls (fun call state =>
    (always_call call).mono (fun _ _ proper => proper.upholds roundTrip) fun _ _ _ => id)
    initially run

/-- An event that is attested while it is created. -/
def sampleOverlapping : Bool → AttestorCall
  | true => .createEvent "uuid" "maturation" "chain"
  | false => .attest "uuid" 5

def sampleProgram (index : Bool) :
    Program AttestorRequest AttestorRequest.Answer (Except String Unit) :=
  ((sampleOverlapping index).run sampleAttestor).run

/-- `attest` has made a request when the event is created, and stores its attestation. -/
def sampleBegun : Program AttestorRequest AttestorRequest.Answer (Except String Unit) ×
    AttestorState :=
  (sampleProgram false).forward (serve sampleAttestor) 1 sampleStart

def sampleBetween : Program AttestorRequest AttestorRequest.Answer (Except String Unit) ×
    AttestorState :=
  (sampleProgram true).forward (serve sampleAttestor) 19 sampleBegun.2

def sampleEnded : Program AttestorRequest AttestorRequest.Answer (Except String Unit) ×
    AttestorState :=
  sampleBegun.1.forward (serve sampleAttestor) 19 sampleBetween.2

/-- The call has returned, with success. -/
def isStored : Program AttestorRequest AttestorRequest.Answer (Except String Unit) → Bool
  | ret (.ok ()) => true
  | _ => false

/-- Both calls have stored what they made, and the record is coherent. -/
theorem interleaved_coherent_samplePool :
    isStored sampleBetween.1 = true ∧ isStored sampleEnded.1 = true ∧
      CoherentRows sampleAttestor sampleEnded.2.db := by
  have initially : CoherentRows sampleAttestor sampleStart.db := by
    intro eventId row found
    rw [sampleStart, Storage.Database.empty, UniqueTable.find?_empty] at found
    cases found
  have goes (turns : Nat) (program : Program AttestorRequest AttestorRequest.Answer
      (Except String Unit)) (state : AttestorState) :=
    reaches_forward (serve sampleAttestor) (world_serve sampleAttestor True) turns program state
  obtain ⟨_, _, run, -⟩ := interleaved_overtaking Bool.false_ne_true
    (goes 1 (sampleProgram false) sampleStart) (goes 19 (sampleProgram true) sampleBegun.2)
    (goes 19 sampleBegun.1 sampleBetween.2)
  refine ⟨by decide +kernel, by decide +kernel, ?_⟩
  exact interleaved_coherent (sampleEncodings_roundTrip _ _) sampleOverlapping initially run

end WasmAttestor

end DlcStack
