import DlcStack.ObserverReads
import Mathlib.Data.List.Forall2

/-!
# The list of all events

An observer lists its events where each of them is shown alone, and then in the same way.
One that cannot be shown hides all of them; however the calls of the observer overlap,
that is only one that was attested for an outcome which JavaScript has no number for.
-/

namespace DlcStack

open Storage (Json)

/-! ## Lists of results -/

/-- Two passes over a list, as one. -/
theorem mapM_bind_mapM {α β γ : Type} (first : α → Option β) (second : β → Option γ)
    (elements : List α) :
    ((elements.mapM first).bind fun results => results.mapM second) =
      elements.mapM fun element => (first element).bind second := by
  induction elements with
  | nil => rfl
  | cons element rest ih =>
      simp only [List.mapM_cons, Option.bind_eq_bind, Option.pure_def]
      rw [← ih]
      cases first element with
      | none => rfl
      | some result =>
          cases rest.mapM first with
          | none => simp
          | some results => simp

/-- The results of a pass that may fail, where it does not. -/
theorem toOption_mapM {α β ε : Type} (read : α → Except ε β) (elements : List α) :
    (elements.mapM read).toOption = elements.mapM fun element => (read element).toOption := by
  induction elements with
  | nil => rfl
  | cons element rest ih =>
      simp only [List.mapM_cons, Option.bind_eq_bind, Option.pure_def]
      rw [← ih]
      cases read element with
      | error error => rfl
      | ok result =>
          cases rest.mapM read <;> rfl

theorem mapM_eq_none_iff {α β : Type} {read : α → Option β} {elements : List α} :
    elements.mapM read = none ↔ ∃ element ∈ elements, read element = none := by
  induction elements with
  | nil => simp
  | cons element rest ih =>
      cases first : read element with
      | none => simp [first]
      | some result =>
          cases others : rest.mapM read with
          | none => simp [first, others, ← ih]
          | some results =>
              rw [others] at ih
              simp [first, others, ← ih]

theorem forall₂_of_mapM {α β : Type} {read : α → Option β} {elements : List α}
    {results : List β} (all : elements.mapM read = some results) :
    List.Forall₂ (fun element result => read element = some result) elements results := by
  induction elements generalizing results with
  | nil =>
      obtain rfl := Option.some.inj all
      exact .nil
  | cons element rest ih =>
      simp only [List.mapM_cons, Option.bind_eq_bind, Option.pure_def] at all
      obtain ⟨result, isResult, all⟩ := Option.bind_eq_some_iff.mp all
      obtain ⟨others, areOthers, all⟩ := Option.bind_eq_some_iff.mp all
      obtain rfl := Option.some.inj all
      exact .cons isResult (ih areOthers)

namespace ObserverService

open Program Clients WasmAttestor

/-- How a record with this content is shown. -/
def shownAs (service : ObserverService) (content : String) : Option Json :=
  (service.attestor.encodings.base64Decode content).toOption.bind fun text =>
    (parseDatabaseEntry service.attestor service.texts text).toOption.bind fun event =>
      event.toJson service.number

section Runs

variable {service : ObserverService} {start final : AttestorState}
  {steps : List AttestorStep} {shown : Option Json}

/-- What is read of one event. -/
theorem runs_get_eq {uuid : String} {answer : Except OracleError (Option String)}
    (run : Runs (World service.attestor False) (WasmAttestor.get service.attestor uuid).run
      start steps answer final) :
    answer = (start.db.events.find? (service.attestor.publicKey, uuid)).elim (.ok none)
      fun row => ((service.attestor.encodings.base64Decode row.content).mapError
        .base64DecodeError).map some := by
  rcases runs_run_bind _ _ run with ⟨error, first, -⟩ |
    ⟨event, middle, front, back, first, second, -⟩
  · cases (runs_getEvent first).1
  · obtain rfl := Except.ok.inj (runs_getEvent first).1
    cases found : start.db.events.find? (service.attestor.publicKey, uuid) with
    | none =>
        rw [found] at second
        exact second.2.1
    | some row =>
        rw [found] at second
        dsimp only at second
        cases decoded : service.attestor.encodings.base64Decode row.content with
        | error error =>
            rw [decoded] at second
            simpa [Except.mapError, Except.map, decoded] using second.2.1
        | ok text =>
            rw [decoded] at second
            simpa [Except.mapError, Except.map, decoded] using second.2.1

/-- What is shown of one event. -/
theorem runs_getEvent_shownAs {uuid : String}
    (run : Runs (World service.attestor False) (service.getEvent uuid) start steps shown
      final) :
    shown = (start.db.events.find? (service.attestor.publicKey, uuid)).bind fun row =>
      service.shownAs row.content := by
  obtain ⟨result, middle, front, back, first, second, -⟩ := (runs_bind _ _).mp run
  obtain ⟨answer, middle', front', back', got, parse, -⟩ := (runs_run_lift_bind _ _).mp first
  obtain rfl := runs_get_eq got
  cases found : start.db.events.find? (service.attestor.publicKey, uuid) with
  | none =>
      rw [found] at parse
      obtain rfl := parse.2.1
      exact second.2.1
  | some row =>
      rw [found] at parse
      rw [Option.bind_some, shownAs]
      dsimp only [Option.elim] at parse
      cases decoded : service.attestor.encodings.base64Decode row.content with
      | error error =>
          rw [decoded] at parse
          obtain rfl := parse.2.1
          exact second.2.1
      | ok text =>
          rw [decoded] at parse
          dsimp only [Except.mapError, Except.map] at parse
          dsimp only [Except.toOption, Option.bind_some]
          cases parsed : parseDatabaseEntry service.attestor service.texts text with
          | error error =>
              rw [parsed] at parse
              obtain rfl := parse.2.1
              exact second.2.1
          | ok event =>
              rw [parsed] at parse
              obtain rfl := parse.2.1
              exact second.2.1

/-- How a record is decoded for the list. -/
def decodeRow (service : ObserverService) (row : Storage.Event) :
    Except OracleError (String × String) :=
  ((service.attestor.encodings.base64Decode row.content).mapError .base64DecodeError).map
    fun content => (row.eventId, content)

/-- What is read of all events. -/
theorem runs_getAll {answer : Except OracleError (Option (List (String × String)))}
    (run : Runs (World service.attestor False) (getAll service.attestor).run start steps
      answer final) :
    answer = ((start.db.eventsOf service.attestor.publicKey).mapM service.decodeRow).map
      some := by
  have rows : start.db.getEvents ⟨service.attestor.publicKey, none⟩ =
      start.db.eventsOf service.attestor.publicKey := by
    apply congrArg start.db.events.select
    funext row
    simp [Storage.Database.eventsFilter, Storage.Database.matchesOption]
  rcases runs_run_bind _ _ run with ⟨error, first, -⟩ |
    ⟨events, middle, front, back, first, second, -⟩
  · cases (runs_storage first).1
  · obtain rfl : start.db.eventsOf service.attestor.publicKey = events :=
      rows.symm.trans (Except.ok.inj (runs_storage first).1).symm
    have ends := runs_run_bind _ _ second
    unfold decodeRow
    cases decoded : (start.db.eventsOf service.attestor.publicKey).mapM fun row =>
        ((service.attestor.encodings.base64Decode row.content).mapError
          OracleError.base64DecodeError).map fun content => (row.eventId, content) with
    | error error =>
        rw [decoded] at ends
        rcases ends with ⟨error', failed, rfl⟩ | ⟨_, _, _, _, ⟨-, failed, -⟩, -⟩
        · obtain rfl := Except.error.inj failed.2.1
          rfl
        · cases failed
    | ok events =>
        rw [decoded] at ends
        rcases ends with ⟨error', failed, rfl⟩ | ⟨_, _, _, _, ⟨-, same, -⟩, ended, -⟩
        · cases failed.2.1
        · obtain rfl := Except.ok.inj same
          exact ended.2.1

/-- The passes over the list, record by record. -/
theorem mapM_shownAs (rows : List Storage.Event) :
    rows.mapM (fun row => service.shownAs row.content) =
      (rows.mapM service.decodeRow).toOption.bind fun events =>
        (events.mapM fun event =>
          parseDatabaseEntry service.attestor service.texts event.2).toOption.bind fun events =>
            events.mapM (ApiOracleEvent.toJson service.number) := by
  simp only [toOption_mapM, mapM_bind_mapM]
  congr 1
  funext row
  unfold shownAs decodeRow
  cases service.attestor.encodings.base64Decode row.content <;> rfl

/-- What is shown of all events. -/
theorem runs_getAllEvents
    (run : Runs (World service.attestor False) service.getAllEvents start steps shown
      final) :
    shown = ((start.db.eventsOf service.attestor.publicKey).mapM fun row =>
      service.shownAs row.content).map .array := by
  obtain ⟨result, middle, front, back, first, ⟨-, rfl, -⟩, -⟩ := (runs_bind _ _).mp run
  obtain ⟨answer, middle', front', back', got, shows, -⟩ := (runs_run_lift_bind _ _).mp first
  obtain rfl := runs_getAll got
  rw [mapM_shownAs]
  cases decoded : (start.db.eventsOf service.attestor.publicKey).mapM service.decodeRow with
  | error error =>
      rw [decoded] at shows
      obtain rfl := shows.2.1
      rfl
  | ok events =>
      rw [decoded] at shows
      dsimp only [Except.map, Except.toOption, Option.bind_some] at shows ⊢
      cases parsed : events.mapM fun event =>
          parseDatabaseEntry service.attestor service.texts event.2 with
      | error error =>
          rw [parsed] at shows
          obtain rfl := shows.2.1
          rfl
      | ok events =>
          rw [parsed] at shows
          dsimp only [Option.bind_some] at shows ⊢
          cases written : events.mapM (ApiOracleEvent.toJson service.number) with
          | none =>
              rw [written] at shows
              obtain rfl := shows.2.1
              rfl
          | some items =>
              rw [written] at shows
              obtain rfl := shows.2.1
              rfl

end Runs

/-! ## Records that can be shown -/

variable {ι : Type} [DecidableEq ι] {attestor : Attestor} {calls : ι → ObserverCall}

/-- All records of the attestor are coherent, and so is everything that was read. -/
structure AllCoherent (attestor : Attestor) (pool : ObserverPool ι)
    (state : AttestorState) : Prop where
  stored : CoherentRows attestor state.db
  read : ∀ index uuid row, ReadRow attestor uuid (pool index).past row →
    CoherentRow attestor uuid row

theorem AllCoherent.advance {lossy : Prop} {call : ObserverCall} {pool : ObserverPool ι}
    {index : ι} {step : AttestorStep} (program : AttestorProgram Reply)
    (roundTrip : attestor.encodings.RoundTrip)
    (coherent : AllCoherent attestor pool step.before)
    (served : World attestor lossy step.before step.request step.answer step.after)
    (handled : Handled attestor call (pool index).past step) :
    AllCoherent attestor (pool.advance index step program) step.after := by
  -- what a request sets is coherent
  have kept {eventId nonce : String} {value : DbValue} {sent : Storage.Call}
      (request : step.request = .api (.send nonce sent))
      (sets : Sets attestor eventId (attestor.encodings.content value) (pool index).past sent)
      (isCoherent : Coherent attestor eventId value) :
      CoherentRows attestor step.after.db := by
    intro uuid row found
    rcases find?_after_sets served request sets with same | ⟨own, row', found', content⟩
    · exact coherent.stored uuid row (same ▸ found)
    · subst own
      rw [found] at found'
      obtain rfl := Option.some.inj found'
      exact ⟨value, by rw [content, roundTrip.value?_content], isCoherent⟩
  constructor
  · cases handled with
    | reads free =>
        rw [served.db_unchanged free]
        exact coherent.stored
    | creates writes request announced sets first =>
        exact kept request sets ⟨_, _, announced.coherent roundTrip _⟩
    | attests writes request written sets =>
        exact kept request sets (written.coherent roundTrip fun row => coherent.read index _ row)
  · intro other uuid row read
    rcases readRow_advance served read with read | ⟨-, found⟩
    · exact coherent.read other uuid row read
    · exact coherent.stored uuid row found

/-- Whatever calls an observer handles, all records and all that is read of them are
coherent. -/
theorem allCoherent_of_interleaved {service : ObserverService}
    (roundTrip : service.attestor.encodings.RoundTrip)
    {drawn : List SecretKey} {trace : List (ι × AttestorStep)} {pool : ObserverPool ι}
    {reached : AttestorState}
    (history : Interleaved (World service.attestor True) AnyStep
      (fun index => Thread.start ((calls index).run service)) ⟨.empty, drawn⟩ trace pool
      reached) :
    AllCoherent service.attestor pool reached := by
  refine history.invariant (AllCoherent service.attestor)
    (fun index state => always_observerCall (calls index)) ⟨?_, ?_⟩ ?_
  · intro uuid row found
    rw [Storage.Database.empty, UniqueTable.find?_empty] at found
    cases found
  · rintro index uuid row ⟨_, _, _, _, _, member⟩
    cases member
  · intro current index step program coherent _ served _ handled _
    exact coherent.advance program roundTrip served handled

/-- A coherent record is shown just where JavaScript has a number for its outcome. -/
theorem shownAs_eq_none_iff {service : ObserverService} {uuid content : String}
    {value : DbValue} (holds : service.attestor.encodings.value? content = some value)
    (coherent : Coherent service.attestor uuid value) :
    service.shownAs content = none ↔
      ∃ outcome, value.outcome = some outcome ∧ service.number outcome = none := by
  obtain ⟨text, decoded, parsed⟩ := text_of_value? holds
  obtain ⟨nonces, announcement, coherent⟩ := coherent
  have shows : ∃ event, parseDatabaseEntry service.attestor service.texts text = .ok event ∧
      event.outcome = value.outcome := by
    unfold parseDatabaseEntry
    rw [parsed]
    dsimp only
    rw [coherent.announced]
    exact ⟨_, rfl, rfl⟩
  obtain ⟨event, shows, sameOutcome⟩ := shows
  unfold shownAs ApiOracleEvent.toJson
  rw [decoded]
  dsimp only [Except.toOption, Option.bind_some]
  rw [shows]
  dsimp only [Option.bind_some]
  rw [sameOutcome]
  cases value.outcome with
  | none => simp
  | some outcome => cases shown : service.number outcome <;> simp [shown]

/-- The records that are listed of an attestor are those that are found one by one. -/
theorem mem_eventsOf_iff {db : Storage.Database} {key : PublicKey} {row : Storage.Event} :
    row ∈ db.eventsOf key ↔ db.events.find? (key, row.eventId) = some row := by
  rw [UniqueTable.find?_eq_some_iff, Storage.Database.eventsOf, UniqueTable.select,
    List.mem_filter]
  simp [Storage.Event.uniqueKey]

/-- Over a reliable network, this is shown of the event. -/
def ShowsNow (service : ObserverService) (state : AttestorState) (uuid : String)
    (shown : Option Json) : Prop :=
  ∀ steps answer final,
    Runs (World service.attestor False) (service.getEvent uuid) state steps answer final →
      answer = shown

/-- In every state that the calls of an observer reach from an empty database, however they
overlap and whatever requests are lost, the list of all events is null exactly if an event
is attested for an outcome that JavaScript has no number for, and otherwise it has for each
event what is shown of it alone. -/
theorem events_listed {service : ObserverService}
    (roundTrip : service.attestor.encodings.RoundTrip)
    {drawn : List SecretKey} {trace : List (ι × AttestorStep)} {pool : ObserverPool ι}
    {reached : AttestorState}
    (history : Interleaved (World service.attestor True) AnyStep
      (fun index => Thread.start ((calls index).run service)) ⟨.empty, drawn⟩ trace pool
      reached)
    {steps : List AttestorStep} {shown : Option Json} {final : AttestorState}
    (run : Runs (World service.attestor False) service.getAllEvents reached steps shown
      final) :
    (shown = none ↔ ∃ uuid value outcome,
      storedValue? service.attestor reached.db uuid = some value ∧
        value.outcome = some outcome ∧ service.number outcome = none) ∧
    ∀ json, shown = some json → ∃ items, json = .array items ∧
      List.Forall₂ (fun row item => service.ShowsNow reached row.eventId (some item))
        (reached.db.eventsOf service.attestor.publicKey) items := by
  have coherent := allCoherent_of_interleaved roundTrip history
  obtain rfl := runs_getAllEvents run
  constructor
  · rw [Option.map_eq_none_iff, mapM_eq_none_iff]
    constructor
    · rintro ⟨row, member, hidden⟩
      have found := mem_eventsOf_iff.mp member
      obtain ⟨value, holds, isCoherent⟩ := coherent.stored _ row found
      obtain ⟨outcome, attested, none⟩ := (shownAs_eq_none_iff holds isCoherent).mp hidden
      exact ⟨row.eventId, value, outcome, by rw [storedValue?, found]; exact holds, attested,
        none⟩
    · rintro ⟨uuid, value, outcome, stored, attested, none⟩
      obtain ⟨row, found, holds⟩ := Option.bind_eq_some_iff.mp stored
      obtain ⟨value', holds', isCoherent⟩ := coherent.stored uuid row found
      rw [holds] at holds'
      obtain rfl := Option.some.inj holds'
      have named : row.eventId = uuid :=
        (Prod.mk.inj (UniqueTable.find?_eq_some_iff.mp found).2).2
      refine ⟨row, mem_eventsOf_iff.mpr (named ▸ found), ?_⟩
      exact (shownAs_eq_none_iff holds isCoherent).mpr ⟨outcome, attested, none⟩
  · intro json shows
    obtain ⟨items, all, rfl⟩ := Option.map_eq_some_iff.mp shows
    refine ⟨items, rfl, ((List.forall₂_and_left _ _).mpr
      ⟨fun row => mem_eventsOf_iff.mp, forall₂_of_mapM all⟩).imp ?_⟩
    rintro row item ⟨found, shows⟩ steps answer final shown
    rw [runs_getEvent_shownAs shown, found]
    exact shows

/-- The events after one was created, attested and read. -/
def sampleListing : List AttestorStep × Option Json × AttestorState :=
  eval (serve sampleObserver.attestor) sampleObserver.getAllEvents sampleObserved.2

theorem isSome_sampleListing : sampleListing.2.1.isSome = true := by
  decide +kernel

/-- The event is created, and attested for an outcome that is not shown. -/
def sampleHiddenTurns : List Nat :=
  List.replicate 20 0 ++ List.replicate 20 2

def sampleHidden : ObserverPool Nat × AttestorState :=
  sampleObserverPool.schedule (serve sampleObserver.attestor) sampleHiddenTurns sampleStart

theorem attested_sampleHidden :
    ((storedValue? sampleObserver.attestor sampleHidden.2.db "uuid").bind DbValue.outcome) =
      some 9007199254740992 := by
  decide +kernel

/-- The events after that. -/
def sampleHiddenListing : List AttestorStep × Option Json × AttestorState :=
  eval (serve sampleObserver.attestor) sampleObserver.getAllEvents sampleHidden.2

theorem runs_sampleListing (reached : AttestorState) :
    Runs (World sampleObserver.attestor False) sampleObserver.getAllEvents reached
      (eval (serve sampleObserver.attestor) sampleObserver.getAllEvents reached).1
      (eval (serve sampleObserver.attestor) sampleObserver.getAllEvents reached).2.1
      (eval (serve sampleObserver.attestor) sampleObserver.getAllEvents reached).2.2 :=
  runs_eval (serve sampleObserver.attestor) (world_serve sampleObserver.attestor False) _ _

theorem events_listed_sampleListing :
    (∃ items, sampleListing.2.1 = some (.array items) ∧
      List.Forall₂ (fun row item =>
          sampleObserver.ShowsNow sampleObserved.2 row.eventId (some item))
        (sampleObserved.2.db.eventsOf sampleObserver.attestor.publicKey) items) ∧
    sampleHiddenListing.2.1 = none := by
  constructor
  · obtain ⟨json, shown⟩ := Option.isSome_iff_exists.mp isSome_sampleListing
    obtain ⟨items, rfl, listed⟩ := (events_listed sampleObserver_roundTrip
      interleaved_sampleObserved (runs_sampleListing sampleObserved.2)).2 json shown
    exact ⟨items, shown, listed⟩
  · have history : Interleaved (World sampleObserver.attestor True) AnyStep
        sampleObserverPool sampleStart
        ([] ++ sampleObserverPool.trace (serve sampleObserver.attestor) sampleHiddenTurns
          sampleStart) sampleHidden.1 sampleHidden.2 :=
      interleaved_schedule (serve sampleObserver.attestor)
        (world_serve sampleObserver.attestor True) sampleHiddenTurns
        (metAlong_anyStep _ _ sampleObserverPool sampleStart) .idle
    obtain ⟨value, stored, attested⟩ := Option.bind_eq_some_iff.mp attested_sampleHidden
    exact (events_listed sampleObserver_roundTrip history
      (runs_sampleListing sampleHidden.2)).1.mpr ⟨"uuid", value, _, stored, attested,
        by decide⟩

end ObserverService

end DlcStack
