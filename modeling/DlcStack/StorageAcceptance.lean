import DlcStack.EffectAssumptions
import DlcStack.StorageNonces
import DlcStack.StorageSignedRequests

/-!
# Signed requests take effect

A client that signs its request with a nonce it was issued gets it through, whatever other
requests the server has at the same time, unless a hundred nonces were issued or its nonce
was presented before the request arrived.  For the database and the client the request is
then one step: the call that the client made.
-/

namespace DlcStack

namespace Storage

open Program

variable {ι : Type} [DecidableEq ι] {lib : Libraries} {draw : Nat → String}
  {requests : ι → Request} {db : Database} {pool : Requests ι} {server : Server}
  {trace : List (ι × Step Server Effect Effect.Answer)}

/-- One of the steps is the call, with its effect on the database and its response; the
others leave the database as it is. -/
def TakesEffect (call : Call) (steps : List (Step Server Effect Effect.Answer))
    (response : Option Response) : Prop :=
  ∃ front step back, steps = front ++ step :: back ∧ step.request = .handle call ∧
    step.after.db = (call.respond step.before.db).2 ∧
    response = some (call.respond step.before.db).1 ∧
    ∀ other ∈ front ++ back, other.after.db = other.before.db

/-- A step that runs no handler leaves the database. -/
theorem db_of_unhandled {step : Step Server Effect Effect.Answer}
    (served : (Server.answer draw).env step.before step.request step.answer step.after)
    (unhandled : handled [step] = []) : step.after.db = step.before.db := by
  obtain ⟨before, request, answer, after⟩ := step
  obtain rfl : (Server.answer draw before request).2 = after := congrArg Prod.snd served
  cases request with
  | handle call => cases unhandled
  | _ => rfl

/-- A step that runs a handler does as its call. -/
theorem respond_of_handled {step : Step Server Effect Effect.Answer} {call : Call}
    {answer : Response}
    (served : (Server.answer draw).env step.before step.request step.answer step.after)
    (isHandled : handled [step] = [(call, answer)]) (notNonce : call ≠ .requestNonce) :
    step.request = .handle call ∧ step.after.db = (call.respond step.before.db).2 ∧
      answer = (call.respond step.before.db).1 := by
  obtain ⟨before, request, answer', after⟩ := step
  cases request with
  | handle other =>
      obtain ⟨rfl, rfl⟩ := Prod.mk.inj (List.singleton_inj.mp isHandled)
      have answered := congrArg Prod.fst served
      have changed := congrArg Prod.snd served
      cases other with
      | requestNonce => exact absurd rfl notNonce
      | _ => exact ⟨rfl, congrArg Server.db changed.symm, answered.symm⟩
  | _ => cases isHandled

/-- What is passed on takes effect. -/
theorem PassedOn.takesEffect {call : Call}
    {steps : List (Step Server Effect Effect.Answer)} {response : Option Response}
    (passedOn : PassedOn call steps response) (notNonce : call ≠ .requestNonce)
    (served : ∀ step ∈ steps,
      (Server.answer draw).env step.before step.request step.answer step.after) :
    TakesEffect call steps response := by
  obtain ⟨answer, one, rfl⟩ := passedOn.handled
  obtain ⟨front, step, back, rfl, none, isHandled, none'⟩ :=
    List.filterMap_eq_cons_iff.mp one
  obtain ⟨handles, effect, same⟩ := respond_of_handled (served step (by simp))
    (List.filterMap_cons_some isHandled) notNonce
  refine ⟨front, step, back, rfl, handles, effect, by rw [same], ?_⟩
  intro other member
  have unhandled : Storage.handled [other] = [] := by
    rcases List.mem_append.mp member with member | member
    · exact List.filterMap_cons_none (none other member)
    · exact List.filterMap_cons_none (List.filterMap_eq_nil_iff.mp none' other member)
  apply db_of_unhandled (served other _) unhandled
  rcases List.mem_append.mp member with member | member <;> simp [member]

/-- The environment in which the nonce is listed where a request copies the list. -/
theorem listed_eq_restrict (nonce : String) :
    Listed draw nonce = (Server.answer draw).env.restrict fun step =>
      step.request = .copyNonces → nonce ∈ step.before.nonces :=
  rfl

/-- A request with a nonce copies the list in its first step only. -/
theorem copies_first
    (run : Interleaved (Server.answer draw).env AnyStep
      (fun index => Thread.start (call lib (requests index))) (.initial db) trace pool
      server)
    {index : ι} {nonce : String}
    (authorized : (requests index).authorization = some (.visible nonce))
    {front back : List (ι × Step Server Effect Effect.Answer)}
    {step : Step Server Effect Effect.Answer}
    (split : trace = front ++ (index, step) :: back) (copies : step.request = .copyNonces) :
    stepsOf index front = [] := by
  -- only this request is known to have a nonce
  have locally (other : ι) : (Thread.start (call lib (requests other)) :
      Thread Server Effect Effect.Answer (Option Response)).Locally (Server.answer draw).env
        (fun past step => other = index → Disciplined nonce past step) (fun _ _ => True) := by
    intro server
    by_cases same : other = index
    · subst same
      exact (always_disciplined lib (requests other) authorized server).mono
        (fun _ _ disciplined _ => disciplined) fun _ _ _ _ => trivial
    · exact always_of_forall (fun _ _ isIndex => absurd isIndex same)
        (fun _ _ _ => trivial) _
  have disciplined := (run.step_good locally split).1 rfl
  unfold Disciplined at disciplined
  rw [copies] at disciplined
  exact disciplined

/-- However the requests to the server overlap, a client's request that is signed with a
nonce which the server issued takes effect as the call that the client made, and is
answered with its response, if before it arrives fewer than a hundred other nonces are
issued and no request presents the nonce. -/
theorem signed_request_takes_effect {signer : Signer lib} (agrees : signer.Agrees)
    (nests : lib.Nests)
    (run : Interleaved (Server.answer draw).env AnyStep
      (fun index => Thread.start (call lib (requests index))) (.initial db) trace pool
      server)
    {index : ι} {secretKey : signer.SecretKey} {operation : Operation} {nonce : String}
    (sent : requests index = operation.request signer secretKey nonce)
    (owned : operation.key = signer.publicKeyToString (signer.publicKey secretKey))
    (fits : (operation.request signer secretKey nonce).payload.length ≤ bytesLimit)
    {front middle back : List (ι × Step Server Effect Effect.Answer)}
    {issue : ι × Step Server Effect Effect.Answer}
    {arrival : Step Server Effect Effect.Answer}
    (split : trace = front ++ issue :: middle ++ (index, arrival) :: back)
    (issued : issuedNonce issue.2 = some nonce)
    (arrives : arrival.request = .copyNonces)
    (unpresented : ∀ taken ∈ middle, ¬ Presents requests taken nonce)
    (few : (issuedNonces middle).length < 100)
    {response : Option Response} (returned : (pool index).program = ret response) :
    TakesEffect operation.call (pool index).past response := by
  have authorized : (requests index).authorization = some (.visible nonce) := by
    rw [sent]
    cases operation <;> rfl
  have past : (pool index).past = stepsOf index trace := run.past index
  -- the nonce is listed when the request arrives, which is its first step
  obtain ⟨earlier, before⟩ := run.before_step split
  have listed := mem_nonces_of_issued before rfl issued unpresented few
  have first := copies_first run authorized split arrives
  have met (step : Step Server Effect Effect.Answer) (member : step ∈ (pool index).past)
      (copies : step.request = .copyNonces) : nonce ∈ step.before.nonces := by
    rw [past] at member
    obtain ⟨front', back', split'⟩ := List.append_of_mem (mem_stepsOf.mp member)
    have first' := copies_first run authorized split' copies
    have same : arrival :: stepsOf index back = step :: stepsOf index back' := by
      rw [← List.nil_append (arrival :: _), ← first, ← stepsOf_split, ← split, split',
        stepsOf_split, first', List.nil_append]
    obtain ⟨rfl, -⟩ := List.cons.inj same
    exact listed
  have locally (other : ι) : (Thread.start (call lib (requests other)) :
      Thread Server Effect Effect.Answer (Option Response)).Locally (Server.answer draw).env
        (fun _ _ => True) (fun past response => other = index →
          (∀ step, step ∈ past → step.request = .copyNonces → nonce ∈ step.before.nonces) →
            PassedOn operation.call past response) := by
    intro server
    by_cases same : other = index
    · subst same
      have passedOn := call_passedOn agrees nests draw secretKey operation nonce server owned
        fits
      rw [listed_eq_restrict, ← sent] at passedOn
      exact passedOn.assuming.post_mono fun _ _ _ holds _ => holds
    · exact always_of_forall (fun _ _ => trivial)
        (fun _ _ _ isIndex => absurd isIndex same) _
  have passedOn := (run.locally locally index).of_ret server returned rfl met
  have served (step : Step Server Effect Effect.Answer) (member : step ∈ (pool index).past) :
      (Server.answer draw).env step.before step.request step.answer step.after := by
    rw [past] at member
    obtain ⟨front', back', split'⟩ := List.append_of_mem (mem_stepsOf.mp member)
    exact (run.step_good locally split').2
  exact passedOn.takesEffect (by cases operation <;> simp [Operation.call]) served

/-- Two nonces are issued before a signed request with the first of them. -/
def sampleAcceptance : Nat → Request
  | 1 => sampleUpdate.request .symbolic "alice" "nonce"
  | _ => ⟨.get, "/request_nonce", [], none, false, .empty⟩

def sampleNonce (index : Nat) : String :=
  if index = 0 then "nonce" else "other"

def sampleAcceptancePool : Requests Nat :=
  fun index => Thread.start (call .symbolic (sampleAcceptance index))

def sampleArrivals : List Nat :=
  [0, 2, 1, 1, 1, 1, 1]

def sampleAccepted : Requests Nat × Server :=
  sampleAcceptancePool.schedule (Server.answer sampleNonce) sampleArrivals (.initial .empty)

def sampleAcceptedTrace : List (Nat × Step Server Effect Effect.Answer) :=
  sampleAcceptancePool.trace (Server.answer sampleNonce) sampleArrivals (.initial .empty)

/-- What is returned, if the program has returned. -/
def returned? {α : Type} : Program Effect Effect.Answer α → Option α
  | .ret value => some value
  | .ask _ _ => none

theorem eq_ret_of_returned? {α : Type} {program : Program Effect Effect.Answer α} {value : α}
    (returns : returned? program = some value) : program = ret value := by
  cases program with
  | ret other => exact congrArg ret (Option.some.inj returns)
  | ask request next => cases returns

theorem returned?_sampleAccepted :
    (returned? (sampleAccepted.1 1).program).isSome = true := by
  decide +kernel

/-- The nonces are issued, and then the request arrives. -/
theorem requests_sampleAcceptedTrace :
    (sampleAcceptedTrace.take 3).map
        (fun taken => (taken.1, taken.2.request, issuedNonce taken.2)) =
      [(0, .handle .requestNonce, some "nonce"), (2, .handle .requestNonce, some "other"),
        (1, .copyNonces, none)] := by
  decide +kernel

theorem split_sampleAcceptedTrace :
    ∃ issue between arrival later,
      sampleAcceptedTrace = [] ++ issue :: [between] ++ (1, arrival) :: later ∧
        issuedNonce issue.2 = some "nonce" ∧
        between.2.request = .handle .requestNonce ∧ arrival.request = .copyNonces := by
  obtain ⟨issue, rest, taken, sameIssue, sameRest⟩ :=
    List.map_eq_cons_iff.mp requests_sampleAcceptedTrace
  obtain ⟨between, last, rfl, sameBetween, sameLast⟩ := List.map_eq_cons_iff.mp sameRest
  obtain ⟨⟨index, arrival⟩, rfl, sameArrival⟩ := List.map_eq_singleton_iff.mp sameLast
  obtain ⟨rfl, sameArrival⟩ := Prod.mk.inj sameArrival
  refine ⟨issue, between, arrival, sampleAcceptedTrace.drop 3, ?_, ?_, ?_, ?_⟩
  · conv_lhs => rw [← List.take_append_drop 3 sampleAcceptedTrace, taken]
    rfl
  · exact (Prod.mk.inj (Prod.mk.inj sameIssue).2).2
  · exact (Prod.mk.inj (Prod.mk.inj sameBetween).2).1
  · exact (Prod.mk.inj sameArrival).1

theorem signed_request_takes_effect_sampleAccepted :
    ∃ response, (sampleAccepted.1 1).program = ret response ∧
      TakesEffect sampleUpdate.call (sampleAccepted.1 1).past response := by
  have run : Interleaved (Server.answer sampleNonce).env AnyStep sampleAcceptancePool
      (.initial .empty) ([] ++ sampleAcceptedTrace) sampleAccepted.1 sampleAccepted.2 :=
    interleaved_schedule (Server.answer sampleNonce) (fun _ _ => rfl) sampleArrivals
      (metAlong_anyStep _ _ sampleAcceptancePool (.initial .empty)) .idle
  obtain ⟨response, returns⟩ := Option.isSome_iff_exists.mp returned?_sampleAccepted
  have returned := eq_ret_of_returned? returns
  obtain ⟨issue, between, arrival, later, split, issued, issues, arrives⟩ :=
    split_sampleAcceptedTrace
  have unpresented (taken : Nat × Step Server Effect Effect.Answer)
      (member : taken ∈ [between]) : ¬ Presents sampleAcceptance taken "nonce" := by
    obtain rfl := List.mem_singleton.mp member
    rintro ⟨-, removal⟩
    rw [issues] at removal
    cases removal
  have few : (issuedNonces [between]).length < 100 :=
    (List.length_filterMap_le _ _).trans_lt (show 1 < 100 by decide)
  exact ⟨response, returned,
    signed_request_takes_effect Signer.symbolic_agrees Libraries.symbolic_nests run rfl
      (by decide) (by decide +kernel) split issued arrives unpresented few returned⟩

end Storage

end DlcStack
