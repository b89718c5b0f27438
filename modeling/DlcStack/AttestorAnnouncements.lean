import DlcStack.AttestorCoherence

/-!
# Announcements that stay

Contracts are locked to the nonces of the announcement that they were offered
with.  `insert` sets the record of an event that exists already, so a repeated
`create_event` replaces its announcement.  As long as `create_event` finds no
record of its event, no call changes an announcement or its nonces, and none
takes an attestation back.
-/

namespace DlcStack

namespace WasmAttestor

open Program Clients

abbrev AttestorSession :=
  Session AttestorCall AttestorState AttestorRequest AttestorRequest.Answer
    (Except String Unit)

/-- The value in the record of an event. -/
def storedValue? (attestor : Attestor) (db : Storage.Database) (eventId : String) :
    Option DbValue :=
  (db.events.find? (attestor.publicKey, eventId)).bind fun row =>
    attestor.encodings.value? row.content

/-- The event is stored with the announcement and the nonces of the value, and
attested if the value is. -/
def Holds (attestor : Attestor) (db : Storage.Database) (eventId : String)
    (value : DbValue) : Prop :=
  ∃ stored, storedValue? attestor db eventId = some stored ∧
    stored.announcement = value.announcement ∧
    stored.outstandingSkNonces = value.outstandingSkNonces ∧
    (value.attestation.isSome → stored.attestation.isSome)

/-- Every announcement and every attestation that was stored before is stored
after. -/
def Keeps (attestor : Attestor) (before after : Storage.Database) : Prop :=
  ∀ eventId value, storedValue? attestor before eventId = some value →
    Holds attestor after eventId value

/-- A call of `create_event` finds no record of its event. -/
def CreatesAnew (attestor : Attestor) (call : AttestorCall)
    (steps : List AttestorStep) : Prop :=
  ∀ uuid maturation chain, call = .createEvent uuid maturation chain →
    ∀ row, ¬ ReadRow attestor uuid steps row

section Keeps

variable {attestor : Attestor} {before middle after : Storage.Database}

theorem Keeps.refl : Keeps attestor before before :=
  fun _ value stored => ⟨value, stored, rfl, rfl, id⟩

theorem Keeps.holds (keeps : Keeps attestor before after) {eventId : String}
    {value : DbValue} (holds : Holds attestor before eventId value) :
    Holds attestor after eventId value := by
  obtain ⟨stored, found, sameAnnouncement, sameNonces, attested⟩ := holds
  obtain ⟨later, found', sameAnnouncement', sameNonces', attested'⟩ :=
    keeps eventId stored found
  exact ⟨later, found', sameAnnouncement'.trans sameAnnouncement,
    sameNonces'.trans sameNonces, fun some => attested' (attested some)⟩

theorem Keeps.trans (first : Keeps attestor before middle)
    (second : Keeps attestor middle after) : Keeps attestor before after :=
  fun eventId value stored => second.holds (first eventId value stored)

/-- Creating a record keeps the others, and itself if it exists. -/
theorem keeps_create (db : Storage.Database) (event : Storage.NewEvent) :
    Keeps attestor db ((Storage.Call.createEvent event).respond db).2 := by
  intro eventId value stored
  refine ⟨value, ?_, rfl, rfl, id⟩
  unfold storedValue? at stored ⊢
  rw [respond_createEvent_snd, Storage.Database.find?_createEvent]
  cases found : db.events.find? (event.key, event.eventId) with
  | some row => exact stored
  | none =>
      dsimp only
      split_ifs with same
      · rw [same, found] at stored
        cases stored
      · exact stored

/-- Setting a record keeps the announcements if its own is kept. -/
theorem keeps_update (roundTrip : attestor.encodings.RoundTrip)
    {db : Storage.Database} {uuid : String} {stored value : DbValue}
    (found : storedValue? attestor db uuid = some stored)
    (sameAnnouncement : value.announcement = stored.announcement)
    (sameNonces : value.outstandingSkNonces = stored.outstandingSkNonces)
    (attested : value.attestation.isSome) :
    Keeps attestor db ((Storage.Call.updateEvent
      ⟨uuid, attestor.encodings.content value, attestor.publicKey⟩).respond db).2 := by
  intro eventId other otherFound
  unfold Holds
  unfold storedValue? at found otherFound ⊢
  rw [respond_updateEvent_snd, Storage.Database.find?_updateEvent]
  split_ifs with same
  · obtain rfl : eventId = uuid := (Prod.mk.inj same).2
    rw [found] at otherFound
    obtain rfl := Option.some.inj otherFound
    obtain ⟨row, rowFound, _⟩ := Option.bind_eq_some_iff.mp found
    refine ⟨value, ?_, sameAnnouncement, sameNonces, fun _ => attested⟩
    rw [rowFound, Option.map_some, Option.bind_some]
    exact roundTrip.value?_content value
  · exact ⟨other, otherFound, rfl, rfl, id⟩

end Keeps

/-- What a call has read is still held. -/
def ReadHeld (attestor : Attestor) (uuid : String) (past : List AttestorStep)
    (db : Storage.Database) : Prop :=
  ∀ row value, ReadRow attestor uuid past row →
    attestor.encodings.value? row.content = some value → Holds attestor db uuid value

section Steps

variable {attestor : Attestor} {lossy : Prop} {call : AttestorCall}
  {past : List AttestorStep}

/-- One step of a call keeps the announcements. -/
theorem Proper.keeps {step : AttestorStep} (roundTrip : attestor.encodings.RoundTrip)
    (proper : Proper attestor call past step)
    (served : World attestor lossy step.before step.request step.answer step.after)
    (anew : CreatesAnew attestor call past)
    (held : ReadHeld attestor call.uuid past step.before.db) :
    Keeps attestor step.before.db step.after.db := by
  by_cases reads : ∀ nonce sent, step.request = .api (.send nonce sent) →
      ∃ params, sent = .getEvents params
  · rw [served.db_unchanged reads]
    exact .refl
  push Not at reads
  obtain ⟨nonce, sent, request, writes⟩ := reads
  obtain ⟨before, request', answer, after⟩ := step
  dsimp only at request served held ⊢
  subst request
  have kept : Keeps attestor before.db (sent.respond before.db).2 := by
    rcases proper nonce sent rfl with rfl | ⟨value, written, sets⟩
    · exact absurd rfl (writes _)
    cases sets with
    | create => exact keeps_create _ _
    | update found =>
        obtain ⟨row, read⟩ := found
        cases written with
        | created => exact absurd read (anew _ _ _ rfl row)
        | attested read holds =>
            obtain ⟨stored, found, same, sameNonces, _⟩ := held _ _ read holds
            exact keeps_update roundTrip found same.symm sameNonces.symm rfl
  rcases served.1 with ⟨_, same⟩ | ⟨_, same | same⟩ <;> rw [same]
  · exact kept
  · exact .refl
  · exact kept

/-- What a step reads is held. -/
theorem ReadHeld.step {step : AttestorStep} {uuid : String}
    (held : ReadHeld attestor uuid past step.before.db)
    (served : World attestor lossy step.before step.request step.answer step.after)
    (keeps : Keeps attestor step.before.db step.after.db) :
    ReadHeld attestor uuid (past ++ [step]) step.after.db := by
  rintro row value ⟨before, nonce, status, rows, after, member⟩ holds
  rcases List.mem_append.mp member with member | member
  · exact keeps.holds
      (held row value ⟨before, nonce, status, rows, after, member⟩ holds)
  · obtain rfl := List.mem_singleton.mp member
    apply keeps
    unfold storedValue?
    rw [served.read_row, Option.bind_some, holds]

/-- The steps of a call together keep the announcements. -/
theorem keeps_of_linked (roundTrip : attestor.encodings.RoundTrip)
    {start final : AttestorState} {steps : List AttestorStep}
    (linked : Linked (World attestor lossy) start steps final)
    (proper : EachStep (Proper attestor call) steps)
    (anew : CreatesAnew attestor call steps) :
    Keeps attestor start.db final.db ∧ ReadHeld attestor call.uuid steps final.db := by
  induction steps using List.reverseRecOn generalizing final with
  | nil =>
      obtain rfl := linked
      refine ⟨.refl, ?_⟩
      rintro row value ⟨_, _, _, _, _, member⟩
      cases member
  | append_singleton earlier step ih =>
      obtain ⟨middle, linkedEarlier, last⟩ := linked_append.mp linked
      obtain ⟨rfl, served, rfl⟩ := linked_singleton.mp last
      obtain ⟨properEarlier, properStep⟩ := eachStep_snoc.mp proper
      have anewEarlier : CreatesAnew attestor call earlier :=
        fun uuid maturation chain same row read =>
          anew uuid maturation chain same row (read.append [step])
      obtain ⟨kept, held⟩ := ih linkedEarlier properEarlier anewEarlier
      have keeps := properStep.keeps roundTrip served anewEarlier held
      exact ⟨kept.trans keeps, held.step served keeps⟩

end Steps

/-- A call that creates events anew keeps the announcements. -/
theorem keeps_of_runs {attestor : Attestor} (roundTrip : attestor.encodings.RoundTrip)
    {lossy : Prop} {call : AttestorCall} {start final : AttestorState}
    {steps : List AttestorStep} {result : Except String Unit}
    (run : Runs (World attestor lossy) (call.run attestor).run start steps result final)
    (anew : CreatesAnew attestor call steps) : Keeps attestor start.db final.db := by
  have always : Always (World attestor lossy) Eq (Proper attestor call)
      (fun _ _ _ => True) [] start (call.run attestor).run :=
    (always_call call).rely_mono fun _ _ _ => trivial
  have proper := (always.of_runs run).1
  simp only [List.nil_append] at proper
  exact (keeps_of_linked roundTrip run.linked proper anew).1

/-- Once stored, an announcement, its nonces and that it is attested stay, over
every sequence of calls in which no `create_event` finds a record of its event. -/
theorem announcements_kept {attestor : Attestor}
    (roundTrip : attestor.encodings.RoundTrip) {start final : AttestorState}
    {earlier later : List AttestorSession}
    (runs : RunsEach (World attestor True)
      (fun call : AttestorCall => (call.run attestor).run) start (earlier ++ later) final)
    (anew : ∀ session ∈ later, CreatesAnew attestor session.operation session.steps) :
    ∃ middle,
      RunsEach (World attestor True)
        (fun call : AttestorCall => (call.run attestor).run) start earlier middle ∧
      RunsEach (World attestor True)
        (fun call : AttestorCall => (call.run attestor).run) middle later final ∧
      Keeps attestor middle.db final.db := by
  obtain ⟨middle, before, after⟩ := runsEach_append.mp runs
  refine ⟨middle, before, after, ?_⟩
  have kept := after.each (fun state => Keeps attestor middle.db state.db)
    (fun session => CreatesAnew attestor session.operation session.steps)
    (fun _ => True)
    (fun session state after anew keeps run =>
      ⟨keeps.trans (keeps_of_runs roundTrip run anew), trivial⟩) anew .refl
  exact kept.1

/-- No step was answered with a record. -/
def readsNothing (steps : List AttestorStep) : Bool :=
  steps.all fun
    | ⟨_, .api (.send _ _), .ok ⟨_, .events (_ :: _)⟩, _⟩ => false
    | _ => true

theorem not_readRow_of_readsNothing {attestor : Attestor} {uuid : String}
    {steps : List AttestorStep} (nothing : readsNothing steps = true)
    (row : Storage.Event) : ¬ ReadRow attestor uuid steps row := by
  rintro ⟨before, nonce, status, rows, after, member⟩
  have read := List.all_eq_true.mp nothing _ member
  simp at read

/-- Calls of the sample attestor after some others. -/
def sampleLater (earlier later : List AttestorCall) : List AttestorSession × AttestorState :=
  evalEach (serve sampleAttestor) (fun call => (call.run sampleAttestor).run) later
    (sampleCalls earlier).2

theorem runs_sampleLater (earlier later : List AttestorCall) (lossy : Prop) :
    RunsEach (World sampleAttestor lossy)
      (fun call : AttestorCall => (call.run sampleAttestor).run) (sampleCalls earlier).2
      (sampleLater earlier later).1 (sampleLater earlier later).2 :=
  runsEach_evalEach _ (world_serve sampleAttestor lossy) _ _ _

/-- An event is created. -/
def sampleFirst : List AttestorCall := [.createEvent "uuid" "maturation" "chain"]

/-- Another event is created, and the first is attested. -/
def sampleSecond : List AttestorCall :=
  [.createEvent "other" "maturation" "chain", .attest "uuid" 0]

theorem announcements_kept_sampleSecond :
    ∃ middle,
      RunsEach (World sampleAttestor True)
        (fun call : AttestorCall => (call.run sampleAttestor).run) sampleStart
        (sampleCalls sampleFirst).1 middle ∧
      RunsEach (World sampleAttestor True)
        (fun call : AttestorCall => (call.run sampleAttestor).run) middle
        (sampleLater sampleFirst sampleSecond).1 (sampleLater sampleFirst sampleSecond).2 ∧
      Keeps sampleAttestor middle.db (sampleLater sampleFirst sampleSecond).2.db := by
  apply announcements_kept (sampleEncodings_roundTrip _ _)
  · with_reducible
      exact runsEach_append.mpr ⟨_, runs_sampleCalls _ _, runs_sampleLater _ _ _⟩
  · intro session member uuid maturation chain creates row
    have creation : (sampleLater sampleFirst sampleSecond).1.all fun session =>
        session.operation == .attest "uuid" 0 || readsNothing session.steps := by
      decide +kernel
    have nothing := List.all_eq_true.mp creation session member
    rw [creates] at nothing
    exact not_readRow_of_readsNothing (by simpa using nothing) row

/-- A second `create_event` of an event replaces its announcement and takes its
attestation back. -/
theorem announcements_not_kept :
    ∃ earlier later middle final,
      RunsEach (World sampleAttestor True)
        (fun call : AttestorCall => (call.run sampleAttestor).run) sampleStart earlier
        middle ∧
      RunsEach (World sampleAttestor True)
        (fun call : AttestorCall => (call.run sampleAttestor).run) middle later final ∧
      later.map (·.operation) = [.createEvent "uuid" "maturation" "chain"] ∧
      storedValue? sampleAttestor middle.db "uuid" =
        some (sampleAttested (sampleCreated 0 0) 0) ∧
      storedValue? sampleAttestor final.db "uuid" = some (sampleCreated 1 14) ∧
      ¬ Keeps sampleAttestor middle.db final.db := by
  have ran : storedValue? sampleAttestor
      (sampleCalls (sampleFirst ++ [.attest "uuid" 0])).2.db "uuid" =
        some (sampleAttested (sampleCreated 0 0) 0) ∧
      storedValue? sampleAttestor
        (sampleLater (sampleFirst ++ [.attest "uuid" 0]) sampleFirst).2.db "uuid" =
          some (sampleCreated 1 14) := by
    decide +kernel
  obtain ⟨attested, again⟩ := ran
  refine ⟨_, _, _, _, runs_sampleCalls _ _, runs_sampleLater _ _ _,
    map_operation_evalEach _ _ _ _, attested, again, ?_⟩
  intro keeps
  obtain ⟨stored, found, _, _, kept⟩ := keeps "uuid" _ attested
  obtain rfl := Option.some.inj (found.symm.trans again)
  have lost := kept rfl
  simp [sampleCreated] at lost

end WasmAttestor

end DlcStack
