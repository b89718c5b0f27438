import DlcStack.BoundedQueue
import DlcStack.EffectAssumptions
import DlcStack.StorageNonceReuse

/-!
# The nonces on offer

The list of nonces is a queue with a place for each of the newest nonces.  A nonce
leaves it when a request presents it as its `Authorization` header, or when too many
others are issued after it.
-/

namespace DlcStack

namespace Storage

open Program

/-- The nonce that a step issues: the text that answers a request for one. -/
def issuedNonce : Step Server Effect Effect.Answer → Option String
  | ⟨_, .handle .requestNonce, ⟨_, .text nonce⟩, _⟩ => some nonce
  | _ => none

/-- The request has the nonce as its `Authorization` header. -/
def Request.Carries (request : Request) (nonce : String) : Prop :=
  ∃ header, request.authorization = some header ∧ header.equals nonce = true

/-- In the step a request with the nonce as its header reaches the `wrap_fn` that removes
nonces. -/
def Presents {ι : Type} (requests : ι → Request)
    (taken : ι × Step Server Effect Effect.Answer) (nonce : String) : Prop :=
  (requests taken.1).Carries nonce ∧ taken.2.request.isRemoval = true

/-! ## What one request does -/

/-- A request removes nothing but what equals its own header. -/
def RemovesOwn (request : Request) (_ : List (Step Server Effect Effect.Answer))
    (step : Step Server Effect Effect.Answer) : Prop :=
  ∀ header, step.request = .removeNonce header → request.authorization = some header

/-- A request that has a header has reached the `wrap_fn`. -/
def HasPresented (request : Request) (past : List (Step Server Effect Effect.Answer)) :
    Prop :=
  request.authorization.isSome = true → Removed past

/-- A request for a nonce, with any header. -/
def Request.AsksNonce (request : Request) : Prop :=
  request.method = .get ∧ request.path = "/request_nonce"

section Locally

variable {lib : Libraries} {draw : Nat → String} {rely : Server → Server → Prop}
  {past : List (Step Server Effect Effect.Answer)} {server : Server}

theorem removesOwn_of_not_removal {request : Request}
    {step : Step Server Effect Effect.Answer} (other : step.request.isRemoval = false) :
    RemovesOwn request past step := by
  intro header removes
  rw [removes] at other
  cases other

/-- The service presents the header, if there is one. -/
theorem always_service_presents (request : Request) :
    Always (Server.answer draw).env rely (RemovesOwn request)
      (fun past _ _ => HasPresented request past)
      past server (service lib request) := by
  unfold service
  have handles {past : List (Step Server Effect Effect.Answer)} {server : Server}
      (presented : HasPresented request past) (call : Call) :
      Always (Server.answer draw).env rely (RemovesOwn request)
        (fun past _ _ => HasPresented request past) past server
        (perform (Effect.handle call)) :=
    fun _ _ _ _ _ => ⟨removesOwn_of_not_removal rfl, fun authorized =>
      (presented authorized).append _⟩
  cases authorized : request.authorization with
  | none =>
      have presented : HasPresented request past := by simp [HasPresented, authorized]
      refine (always_bind _ _).mpr ((always_ret _).mpr ?_)
      cases dispatch lib request with
      | ok call => exact handles presented call
      | error response => exact presented
  | some header =>
      refine (always_perform _ _).mpr fun before _ _ after _ => ⟨?_, ?_⟩
      · rintro _ ⟨⟩
        exact authorized
      · have presented : HasPresented request
            (past ++ [⟨before, .removeNonce header, (), after⟩]) := fun _ =>
          ⟨_, List.mem_append_right _ (List.mem_singleton_self _), rfl⟩
        cases dispatch lib request with
        | ok call => exact handles presented call
        | error response => exact presented

theorem always_rejected_presents (request : Request) :
    Always (Server.answer draw).env rely (RemovesOwn request)
      (fun past response _ => response.isSome = true → HasPresented request past)
      past server (rejected lib request) :=
  (always_bind _ _).mpr ((always_service_presents request).post_mono
    fun _ _ _ presented _ => presented)

/-- A request that is answered, accepted or not, has presented its header. -/
theorem always_call_presents (request : Request) :
    Always (Server.answer draw).env rely (RemovesOwn request)
      (fun past response _ => response.isSome = true → HasPresented request past)
      past server (call lib request) := by
  have serves (past : List (Step Server Effect Effect.Answer)) (server : Server) :
      Always (Server.answer draw).env rely (RemovesOwn request)
        (fun past response _ => response.isSome = true → HasPresented request past)
        past server (do
          let response ← service lib request
          return some response) :=
    (always_bind _ _).mpr ((always_service_presents request).post_mono
      fun _ _ _ presented _ => presented)
  unfold call
  split_ifs
  · exact serves past server
  refine (always_perform _ _).mpr fun before _ nonces after _ =>
    ⟨removesOwn_of_not_removal rfl, ?_⟩
  cases request.authorization with
  | none => exact serves _ _
  | some header =>
  dsimp only
  cases header.toStr with
  | none => exact always_rejected_presents request
  | some nonce =>
  dsimp only
  cases request.queryToCheck with
  | some params =>
      refine (always_perform _ _).mpr fun _ _ _ _ _ => ⟨removesOwn_of_not_removal rfl, ?_⟩
      cases params with
      | none => exact nofun
      | some keys =>
          refine (always_bind _ _).mpr ((always_service_presents request).post_mono ?_)
          intro past response server presented before _ _ after _
          exact ⟨removesOwn_of_not_removal rfl, fun _ authorized =>
            (presented authorized).append _⟩
  | none =>
      refine (always_perform _ _).mpr fun _ _ _ _ _ => ⟨removesOwn_of_not_removal rfl, ?_⟩
      split_ifs
      · exact nofun
      cases request.authenticatedMessage with
      | none => exact always_rejected_presents request.emptied
      | some body =>
          dsimp only
          cases (body.message.index "nonce").asStr with
          | none => exact always_rejected_presents request.emptied
          | some messageNonce =>
              refine (always_perform _ _).mpr fun _ _ _ _ _ =>
                ⟨removesOwn_of_not_removal rfl, ?_⟩
              split_ifs
              · exact (always_bind _ _).mpr ((always_service_presents
                  (request.carrying lib body.message)).post_mono
                    fun _ _ _ presented _ => presented)
              · exact always_rejected_presents request.emptied

/-- A request for a nonce is answered with the one that it issues. -/
theorem always_call_issues {request : Request} (asks : request.AsksNonce) :
    Always (Server.answer draw).env rely (fun _ _ => True)
      (fun past response _ => ∃ step ∈ past, ∃ nonce, issuedNonce step = some nonce ∧
        response = some ⟨.ok, .text nonce⟩)
      past server (call lib request) := by
  obtain ⟨method, path⟩ := asks
  have requoted : lib.requote request.path = "/request_nonce" := by
    rw [path]
    exact lib.requote_plain _ (by decide)
  have dispatched : dispatch lib request = .ok .requestNonce := by
    simp [dispatch, method, requoted]
  have unprotected : request.path ∈ unprotectedPaths := by
    rw [path]
    decide
  have handles (past : List (Step Server Effect Effect.Answer)) (server : Server) :
      Always (Server.answer draw).env rely (fun _ _ => True)
        (fun past response _ => ∃ step ∈ past, ∃ nonce, issuedNonce step = some nonce ∧
          some response = some (⟨.ok, .text nonce⟩ : Response))
        past server (perform (Effect.handle .requestNonce)) := by
    rintro before _ answer after served
    obtain rfl : (before.requestNonce draw).1 = answer := congrArg Prod.fst served
    exact ⟨trivial, _, List.mem_append_right _ (List.mem_singleton_self _),
      draw before.drawn, rfl, rfl⟩
  unfold call service
  rw [if_pos unprotected, dispatched]
  refine (always_bind _ _).mpr ?_
  cases request.authorization with
  | none => exact handles past server
  | some header =>
      exact (always_perform _ _).mpr fun _ _ _ _ _ => ⟨trivial, handles _ _⟩

end Locally

/-! ## The list as a queue -/

/-- What a step does to the list of nonces. -/
def nonceEvent : Step Server Effect Effect.Answer → Option (BoundedQueue.Event String)
  | ⟨_, .handle .requestNonce, ⟨_, .text nonce⟩, _⟩ => some (.push nonce)
  | ⟨_, .removeNonce header, _, _⟩ => some (.remove header.equals)
  | _ => none

theorem nonceEvent_pushed (step : Step Server Effect Effect.Answer) :
    (nonceEvent step).bind BoundedQueue.Event.pushed = issuedNonce step := by
  unfold nonceEvent issuedNonce
  split <;> simp_all [BoundedQueue.Event.pushed]

theorem nonceEvent_of_issued {step : Step Server Effect Effect.Answer} {nonce : String}
    (issued : issuedNonce step = some nonce) : nonceEvent step = some (.push nonce) := by
  unfold issuedNonce at issued
  unfold nonceEvent
  split at issued <;> simp_all

section Runs

variable {ι : Type} {requests : ι → Request} {draw : Nat → String}

/-- The events that pick a nonce are the requests that present it. -/
theorem nonceEvent_picks_iff {taken : ι × Step Server Effect Effect.Answer}
    (own : ∀ header, taken.2.request = .removeNonce header →
      (requests taken.1).authorization = some header) {nonce : String} :
    (∃ event, nonceEvent taken.2 = some event ∧ event.Picks nonce) ↔
      Presents requests taken nonce := by
  obtain ⟨index, before, request, answer, after⟩ := taken
  constructor
  · rintro ⟨event, isEvent, picked⟩
    unfold nonceEvent at isEvent
    split at isEvent
    · obtain rfl := Option.some.inj isEvent
      cases picked
    · rename_i removes
      cases removes
      obtain rfl := Option.some.inj isEvent
      exact ⟨⟨_, own _ rfl, picked⟩, rfl⟩
    · cases isEvent
  · rintro ⟨⟨header, authorized, same⟩, removal⟩
    cases request with
    | removeNonce removed =>
        obtain rfl := Option.some.inj (authorized.symm.trans (own removed rfl))
        exact ⟨_, rfl, same⟩
    | _ => cases removal

/-- The events of a trace, in order. -/
def nonceEvents (trace : List (ι × Step Server Effect Effect.Answer)) :
    List (BoundedQueue.Event String) :=
  trace.filterMap fun taken => nonceEvent taken.2

/-- The nonces that a trace issues, in order. -/
def issuedNonces (trace : List (ι × Step Server Effect Effect.Answer)) : List String :=
  trace.filterMap fun taken => issuedNonce taken.2

theorem nonceEvents_append (front back : List (ι × Step Server Effect Effect.Answer)) :
    nonceEvents (front ++ back) = nonceEvents front ++ nonceEvents back :=
  List.filterMap_append

/-- The events after a nonce was issued in a step. -/
theorem nonceEvents_of_issued {front back : List (ι × Step Server Effect Effect.Answer)}
    {issue : ι × Step Server Effect Effect.Answer} {nonce : String}
    (issued : issuedNonce issue.2 = some nonce) :
    nonceEvents (front ++ issue :: back) =
      nonceEvents front ++ .push nonce :: nonceEvents back := by
  simp [nonceEvents, nonceEvent_of_issued issued]

theorem issuedNonces_of_issued {front back : List (ι × Step Server Effect Effect.Answer)}
    {issue : ι × Step Server Effect Effect.Answer} {nonce : String}
    (issued : issuedNonce issue.2 = some nonce) :
    issuedNonces (front ++ issue :: back) =
      issuedNonces front ++ nonce :: issuedNonces back := by
  simp [issuedNonces, issued]

theorem nonceEvents_pushed (trace : List (ι × Step Server Effect Effect.Answer)) :
    (nonceEvents trace).filterMap BoundedQueue.Event.pushed = issuedNonces trace := by
  unfold nonceEvents issuedNonces
  rw [List.filterMap_filterMap]
  apply List.filterMap_congr
  intro taken _
  exact nonceEvent_pushed taken.2

/-- One step changes the list as its event does. -/
theorem nonces_of_served (step : Step Server Effect Effect.Answer)
    (served : (Server.answer draw).env step.before step.request step.answer step.after) :
    step.after.nonces =
      ((nonceEvent step).map (BoundedQueue.step nonceVecLength step.before.nonces)).getD
        step.before.nonces := by
  obtain ⟨before, request, answer, after⟩ := step
  obtain rfl : (Server.answer draw before request).1 = answer := congrArg Prod.fst served
  obtain rfl : (Server.answer draw before request).2 = after := congrArg Prod.snd served
  cases request with
  | handle call =>
      cases call with
      | requestNonce =>
          simp only [Server.answer, Server.handle, Server.requestNonce, removeOldest_eq]
          rfl
      | _ => rfl
  | _ => rfl

variable [DecidableEq ι]

/-- The list is the queue of the events so far. -/
theorem nonces_eq_contents
    {meets : Requests ι → ι → Step Server Effect Effect.Answer → Prop}
    {pool current : Requests ι} {db : Database} {server : Server}
    {trace : List (ι × Step Server Effect Effect.Answer)}
    (run : Interleaved (Server.answer draw).env meets pool (.initial db) trace current
      server) :
    server.nonces = BoundedQueue.contents nonceVecLength (nonceEvents trace) := by
  induction run with
  | idle => rfl
  | @move trace current before after index request next answer _ _ served _ ih =>
      have stepped := nonces_of_served ⟨before, request, answer, after⟩ served
      rw [ih] at stepped
      rw [stepped, nonceEvents_append]
      cases event : nonceEvent ⟨before, request, answer, after⟩ <;>
        simp [nonceEvents, event]

/-- In a run every request removes nothing but its own header. -/
theorem removesOwn_of_run {lib : Libraries} {db : Database} {pool : Requests ι}
    {server : Server} {trace : List (ι × Step Server Effect Effect.Answer)}
    (run : Interleaved (Server.answer draw).env AnyStep
      (fun index => Thread.start (call lib (requests index))) (.initial db) trace pool
      server) :
    ∀ taken ∈ trace, ∀ header, taken.2.request = .removeNonce header →
      (requests taken.1).authorization = some header := by
  intro taken member
  obtain ⟨front, back, split⟩ := List.append_of_mem member
  exact (run.step_good (fun _ _ => always_call_presents _) split).1

/-- A nonce that was presented after it was issued is off the list. -/
theorem not_mem_nonces_of_presented {lib : Libraries} {db : Database} {pool : Requests ι}
    {server : Server} {trace : List (ι × Step Server Effect Effect.Answer)}
    (run : Interleaved (Server.answer draw).env AnyStep
      (fun index => Thread.start (call lib (requests index))) (.initial db) trace pool
      server)
    (distinct : (issuedNonces trace).Nodup)
    {front back : List (ι × Step Server Effect Effect.Answer)}
    {issue : ι × Step Server Effect Effect.Answer} {nonce : String}
    (split : trace = front ++ issue :: back) (issued : issuedNonce issue.2 = some nonce)
    (presented : ∃ taken ∈ back, Presents requests taken nonce) :
    nonce ∉ server.nonces := by
  have own := removesOwn_of_run run
  rw [nonces_eq_contents run]
  subst split
  obtain ⟨taken, member, presents⟩ := presented
  obtain ⟨middle, later, rfl⟩ := List.append_of_mem member
  obtain ⟨event, isEvent, picked⟩ :=
    (nonceEvent_picks_iff (own taken (by simp))).mpr presents
  have split : nonceEvents (front ++ issue :: (middle ++ taken :: later)) =
      nonceEvents (front ++ issue :: middle) ++ event :: nonceEvents later := by
    rw [← List.cons_append, ← List.append_assoc, nonceEvents_append]
    simp [nonceEvents, isEvent]
  rw [split]
  apply BoundedQueue.not_mem_of_picks picked
  rw [nonceEvents_pushed]
  -- the nonce was issued before, so it is not issued later
  intro again
  have within : later.Sublist (middle ++ taken :: later) :=
    (List.sublist_cons_self taken later).trans (List.sublist_append_right _ _)
  rw [issuedNonces_of_issued issued] at distinct
  apply (List.nodup_cons.mp (List.nodup_append.mp distinct).2.1).1
  exact (within.filterMap _).subset again

/-- A nonce is still on the list after fewer than a hundred others were issued, if it was
not presented. -/
theorem mem_nonces_of_issued {lib : Libraries} {db : Database} {pool : Requests ι}
    {server : Server} {trace : List (ι × Step Server Effect Effect.Answer)}
    (run : Interleaved (Server.answer draw).env AnyStep
      (fun index => Thread.start (call lib (requests index))) (.initial db) trace pool
      server)
    {front back : List (ι × Step Server Effect Effect.Answer)}
    {issue : ι × Step Server Effect Effect.Answer} {nonce : String}
    (split : trace = front ++ issue :: back) (issued : issuedNonce issue.2 = some nonce)
    (unpresented : ∀ taken ∈ back, ¬ Presents requests taken nonce)
    (few : (issuedNonces back).length < 100) : nonce ∈ server.nonces := by
  have own := removesOwn_of_run run
  rw [nonces_eq_contents run]
  subst split
  rw [nonceEvents_of_issued issued]
  apply BoundedQueue.mem_contents_of_few
  · intro event member picked
    obtain ⟨taken, later, isEvent⟩ := List.mem_filterMap.mp member
    exact unpresented taken later ((nonceEvent_picks_iff (own taken (by simp [later]))).mp
      ⟨event, isEvent, picked⟩)
  · rw [nonceEvents_pushed]
    exact few

/-- An answered request has presented its header. -/
theorem presents_of_answered {lib : Libraries} {db : Database} {pool : Requests ι}
    {server : Server} {trace : List (ι × Step Server Effect Effect.Answer)}
    (run : Interleaved (Server.answer draw).env AnyStep
      (fun index => Thread.start (call lib (requests index))) (.initial db) trace pool
      server)
    {index : ι} {response : Response} (answered : (pool index).program = ret (some response))
    {nonce : String} (carries : (requests index).Carries nonce) :
    ∃ taken ∈ trace, taken.1 = index ∧ Presents requests taken nonce := by
  obtain ⟨header, authorized, -⟩ := id carries
  have locally := run.locally (fun _ _ => always_call_presents _) index
  obtain ⟨step, member, removal⟩ := locally.of_ret server answered rfl (by rw [authorized]; rfl)
  have past : (pool index).past = stepsOf index trace := run.past index
  rw [past] at member
  exact ⟨(index, step), mem_stepsOf.mp member, rfl, carries, removal⟩

/-- An answered request for a nonce is answered with one that it issued. -/
theorem issues_of_answered {lib : Libraries} {db : Database} {pool : Requests ι}
    {server : Server} {trace : List (ι × Step Server Effect Effect.Answer)}
    (run : Interleaved (Server.answer draw).env AnyStep
      (fun index => Thread.start (call lib (requests index))) (.initial db) trace pool
      server)
    {index : ι} {response : Response} (answered : (pool index).program = ret (some response))
    (asks : (requests index).AsksNonce) :
    ∃ taken ∈ trace, ∃ nonce, taken.1 = index ∧ issuedNonce taken.2 = some nonce ∧
      response = ⟨.ok, .text nonce⟩ := by
  have locally (other : ι) : (Thread.start (call lib (requests other)) :
      Thread Server Effect Effect.Answer (Option Response)).Locally (Server.answer draw).env
        (fun _ _ => True) (fun past response => other = index →
          ∃ step ∈ past, ∃ nonce, issuedNonce step = some nonce ∧
            response = some ⟨.ok, .text nonce⟩) := by
    intro server
    by_cases same : other = index
    · subst same
      exact (always_call_issues asks).post_mono fun _ _ _ issues _ => issues
    · exact always_of_forall (fun _ _ => trivial)
        (fun _ _ _ isIndex => absurd isIndex same) _
  obtain ⟨step, member, nonce, issued, same⟩ :=
    (run.locally locally index).of_ret server answered rfl
  have past : (pool index).past = stepsOf index trace := run.past index
  rw [past] at member
  exact ⟨(index, step), mem_stepsOf.mp member, nonce, rfl, issued, Option.some.inj same⟩

end Runs

/-- The list holds at most a hundred nonces in the order of their issue: none that was
presented since, and each that was not presented and that fewer than a hundred others
follow.  A request that is answered has presented its header, and one for a nonce is
answered with one that is issued. -/
theorem nonces_on_offer {ι : Type} [DecidableEq ι] (lib : Libraries)
    (draw : Nat → String) (requests : ι → Request) (db : Database)
    {trace : List (ι × Step Server Effect Effect.Answer)} {pool : Requests ι}
    {server : Server}
    (run : Interleaved (Server.answer draw).env AnyStep
      (fun index => Thread.start (call lib (requests index)))
      (.initial db) trace pool server)
    (distinct : (issuedNonces trace).Nodup) :
    server.nonces.length ≤ 100 ∧
    server.nonces.Sublist (issuedNonces trace) ∧
    (∀ front issue back nonce, trace = front ++ issue :: back →
      issuedNonce issue.2 = some nonce →
        ((∃ taken ∈ back, Presents requests taken nonce) → nonce ∉ server.nonces) ∧
        ((∀ taken ∈ back, ¬ Presents requests taken nonce) →
          (issuedNonces back).length < 100 → nonce ∈ server.nonces)) ∧
    ∀ index response, (pool index).program = ret (some response) →
      (∀ nonce, (requests index).Carries nonce →
        ∃ taken ∈ trace, taken.1 = index ∧ Presents requests taken nonce) ∧
      ((requests index).AsksNonce → ∃ taken ∈ trace, ∃ nonce, taken.1 = index ∧
        issuedNonce taken.2 = some nonce ∧ response = ⟨.ok, .text nonce⟩) := by
  refine ⟨?_, ?_, ?_, ?_⟩
  · rw [nonces_eq_contents run]
    exact BoundedQueue.length_contents (by decide) _
  · rw [nonces_eq_contents run, ← nonceEvents_pushed]
    exact BoundedQueue.contents_sublist _
  · intro front issue back nonce split issued
    exact ⟨fun presented => not_mem_nonces_of_presented run distinct split issued presented,
      fun unpresented few => mem_nonces_of_issued run split issued unpresented few⟩
  · intro index response answered
    exact ⟨fun nonce carries => presents_of_answered run answered carries,
      issues_of_answered run answered⟩

/-- A request with the first nonce, and requests for nonces. -/
def sampleQueue : Nat → Request
  | 0 => sampleGet
  | _ => ⟨.get, "/request_nonce", [], none, false, .empty⟩

def sampleQueuePool : Requests Nat :=
  fun index => Thread.start (call .symbolic (sampleQueue index))

/-- The first nonce is issued, and then presented. -/
def sampleQueueTurns : List Nat :=
  [1, 0, 0, 0, 0, 0]

/-- The server after that, and after as many other nonces were issued. -/
def sampleIssued : Nat → Server
  | 0 => (sampleQueuePool.schedule (Server.answer sampleDraw) sampleQueueTurns
      (.initial .empty)).2
  | count + 1 => ((sampleIssued count).requestNonce sampleDraw).2

def sampleIssue (count : Nat) : Nat × Step Server Effect Effect.Answer :=
  (count + 2, ⟨sampleIssued count, .handle .requestNonce,
    ((sampleIssued count).requestNonce sampleDraw).1, sampleIssued (count + 1)⟩)

def sampleQueueTrace (count : Nat) : List (Nat × Step Server Effect Effect.Answer) :=
  sampleQueuePool.trace (Server.answer sampleDraw) sampleQueueTurns (.initial .empty) ++
    (List.range count).map sampleIssue

theorem drawn_sampleIssued (count : Nat) : (sampleIssued count).drawn = count + 1 := by
  induction count with
  | zero => decide +kernel
  | succ count ih => exact congrArg (· + 1) ih

theorem issuedNonce_sampleIssue (count : Nat) :
    issuedNonce (sampleIssue count).2 = some (sampleDraw (count + 1)) :=
  congrArg (fun drawn => some (sampleDraw drawn)) (drawn_sampleIssued count)

/-- Any number of nonces can be issued after that. -/
theorem interleaved_sampleIssued (count : Nat) :
    ∃ pool, Interleaved (Server.answer sampleDraw).env AnyStep sampleQueuePool
        (.initial .empty) (sampleQueueTrace count) pool (sampleIssued count) ∧
      ∀ index, count + 2 ≤ index → pool index = sampleQueuePool index := by
  induction count with
  | zero =>
      refine ⟨(sampleQueuePool.schedule (Server.answer sampleDraw) sampleQueueTurns
        (.initial .empty)).1, ?_, ?_⟩
      · have run : Interleaved (Server.answer sampleDraw).env AnyStep sampleQueuePool
            (.initial .empty) _ _ _ :=
          interleaved_schedule (Server.answer sampleDraw) (fun _ _ => rfl) sampleQueueTurns
            (metAlong_anyStep _ _ sampleQueuePool (.initial .empty)) .idle
        rw [sampleQueueTrace, List.range_zero, List.map_nil, List.append_nil]
        exact run
      · intro index later
        exact Pool.schedule_other _ _ (by simp [sampleQueueTurns]; omega) _ _
  | succ count ih =>
      obtain ⟨pool, run, waits⟩ := ih
      have asks : (pool (count + 2)).program = ask (Effect.handle .requestNonce)
          fun response => ret (some response) := by
        rw [waits _ (Nat.le_refl _)]
        rfl
      have served : (Server.answer sampleDraw).env (sampleIssued count)
          (.handle .requestNonce) ((sampleIssued count).requestNonce sampleDraw).1
          (sampleIssued (count + 1)) :=
        rfl
      have next := run.move asks served trivial
      rw [sampleQueueTrace, List.append_assoc] at next
      rw [sampleQueueTrace, List.range_succ, List.map_append]
      refine ⟨_, next, fun index later => ?_⟩
      rw [Pool.advance_other _ (show index ≠ count + 2 by omega)]
      exact waits index (by omega)

theorem issuedNonces_sampleQueueTrace (count : Nat) :
    issuedNonces (sampleQueueTrace count) = (List.range (count + 1)).map sampleDraw := by
  have first : issuedNonces (sampleQueuePool.trace (Server.answer sampleDraw)
      sampleQueueTurns (.initial .empty)) = [sampleDraw 0] := by
    decide +kernel
  have others : issuedNonces ((List.range count).map sampleIssue) =
      (List.range count).map fun number => sampleDraw (number + 1) := by
    simp [issuedNonces, List.filterMap_map, issuedNonce_sampleIssue]
  rw [List.range_succ_eq_map, List.map_cons, List.map_map]
  exact (List.filterMap_append ..).trans (congrArg₂ (· ++ ·) first others)

/-- The first nonce was presented, the second is followed by a hundred others, and the
third is still on offer. -/
theorem nonces_on_offer_sampleIssued :
    (sampleIssued 101).nonces.length ≤ 100 ∧ sampleDraw 0 ∉ (sampleIssued 101).nonces ∧
      sampleDraw 1 ∉ (sampleIssued 101).nonces ∧
      sampleDraw 2 ∈ (sampleIssued 101).nonces := by
  obtain ⟨pool, run, -⟩ := interleaved_sampleIssued 101
  have distinct : (issuedNonces (sampleQueueTrace 101)).Nodup := by
    rw [issuedNonces_sampleQueueTrace]
    exact List.nodup_range.map sampleDraw_injective
  obtain ⟨few, -, held, -⟩ :=
    nonces_on_offer .symbolic sampleDraw sampleQueue .empty run distinct
  refine ⟨few, ?_, by decide +kernel, ?_⟩
  · refine (held [] _ _ (sampleDraw 0) rfl rfl).1 ⟨_, List.mem_append_left _
      (.tail _ (.tail _ (.head _))), ⟨.visible "n", rfl, by decide⟩, rfl⟩
  · have split : sampleQueueTrace 101 =
        sampleQueueTrace 1 ++ sampleIssue 1 :: (List.range' 2 99).map sampleIssue := by
      have numbers : List.range 101 = List.range 1 ++ 1 :: List.range' 2 99 := by
        decide
      rw [sampleQueueTrace, numbers, List.map_append, ← List.append_assoc]
      rfl
    refine (held _ _ _ (sampleDraw 2) split (issuedNonce_sampleIssue 1)).2 ?_ ?_
    · rintro taken member ⟨⟨header, authorized, -⟩, -⟩
      obtain ⟨number, -, rfl⟩ := List.mem_map.mp member
      cases authorized
    · exact (List.length_filterMap_le _ _).trans_lt (by simp)

end Storage

end DlcStack
