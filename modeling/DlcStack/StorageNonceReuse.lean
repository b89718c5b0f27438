import DlcStack.BoundedQueue
import DlcStack.StorageVerifySigs

/-!
# How many requests a nonce lets through

Each request checks its nonce against the copy of the list it took when it
arrived, and takes the nonce off the list only when it reaches the inner
`wrap_fn`.  A nonce lets at most one request through as long as no request
copies the list while another one with the same header is between these two
points.
-/

namespace DlcStack

namespace Storage

open Program

/-- The running requests of the server. -/
abbrev Requests (ι : Type) :=
  Pool ι Server Effect Effect.Answer (Option Response)

/-- The nonces that a step copies from the list. -/
def copiedNonces : Step Server Effect Effect.Answer → List String
  | ⟨_, .copyNonces, nonces, _⟩ => nonces
  | _ => []

def Effect.isRemoval : Effect → Bool
  | removeNonce _ => true
  | _ => false

def Effect.isAcceptance : Effect → Bool
  | verification accepted => accepted
  | _ => false

def Effect.isHandler : Effect → Bool
  | handle _ => true
  | _ => false

/-- The nonce was on the list when the request copied it. -/
def Holds (past : List (Step Server Effect Effect.Answer)) (nonce : String) :
    Prop :=
  ∃ step ∈ past, nonce ∈ copiedNonces step

/-- The request has taken its nonce off the list. -/
def Removed (past : List (Step Server Effect Effect.Answer)) : Prop :=
  ∃ step ∈ past, step.request.isRemoval = true

/-- The request passed the verification. -/
def Accepted (past : List (Step Server Effect Effect.Answer)) : Prop :=
  ∃ step ∈ past, step.request.isAcceptance = true

/-- The nonce let the request through the verification to its handler. -/
def LetThrough (request : Request)
    (thread : Thread Server Effect Effect.Answer (Option Response))
    (nonce : String) : Prop :=
  request.authorization = some (.visible nonce) ∧ Accepted thread.past ∧
    ∃ step ∈ thread.past, step.request.isHandler = true

/-- The request ended before it removed its nonce. -/
def Panicked (thread : Thread Server Effect Effect.Answer (Option Response)) :
    Prop :=
  thread.Finished ∧ ¬ Removed thread.past

/-- Requests copy the list of nonces only while every other request with the
same nonce that has copied it has removed the nonce or ended. -/
def CopiesAlone {ι : Type} (requests : ι → Request) (pool : Requests ι)
    (index : ι) (step : Step Server Effect Effect.Answer) : Prop :=
  step.request = .copyNonces → ∀ nonce other, other ≠ index →
    (requests index).authorization = some (.visible nonce) →
      (requests other).authorization = some (.visible nonce) →
        (∃ step ∈ (pool other).past, step.request = .copyNonces) →
          Removed (pool other).past ∨ (pool other).Finished

/-! ## What one request does -/

/-- A request copies the list first, passes the verification only with a nonce
from its copy, and removes the nonce of its own header. -/
def Disciplined (nonce : String)
    (past : List (Step Server Effect Effect.Answer))
    (step : Step Server Effect Effect.Answer) : Prop :=
  match step.request with
  | .copyNonces => past = []
  | .verification accepted => accepted = true → Holds past nonce
  | .removeNonce header => header = .visible nonce
  | _ => True

/-- A request that passed the verification has removed its nonce. -/
def Spent (past : List (Step Server Effect Effect.Answer)) : Prop :=
  Accepted past → Removed past

theorem Removed.append {past : List (Step Server Effect Effect.Answer)}
    (removed : Removed past) (later : List (Step Server Effect Effect.Answer)) :
    Removed (past ++ later) := by
  obtain ⟨step, member, removal⟩ := removed
  exact ⟨step, List.mem_append_left _ member, removal⟩

theorem Holds.append {past : List (Step Server Effect Effect.Answer)}
    {nonce : String} (holds : Holds past nonce)
    (later : List (Step Server Effect Effect.Answer)) :
    Holds (past ++ later) nonce := by
  obtain ⟨step, member, copied⟩ := holds
  exact ⟨step, List.mem_append_left _ member, copied⟩

section Locally

variable (lib : Libraries) {env : Environment Server Effect Effect.Answer}
  {rely : Server → Server → Prop} {nonce : String} (request : Request)

/-- The service of a request with a nonce removes it. -/
theorem always_service_removes
    (authorized : request.authorization = some (.visible nonce))
    (past : List (Step Server Effect Effect.Answer)) (server : Server) :
    Always env rely (Disciplined nonce) (fun past _ _ => Removed past)
      past server (service lib request) := by
  unfold service
  rw [authorized]
  refine (always_perform _ _).mpr fun before _ _ after _ => ⟨rfl, ?_⟩
  have removed : Removed (past ++ [⟨before, .removeNonce (.visible nonce), (), after⟩]) :=
    ⟨_, List.mem_append_right _ (List.mem_singleton_self _), rfl⟩
  cases dispatch lib request with
  | ok call => exact fun _ _ _ _ _ => ⟨trivial, removed.append _⟩
  | error response => exact removed

theorem always_rejected_removes
    (authorized : request.authorization = some (.visible nonce))
    (past : List (Step Server Effect Effect.Answer)) (server : Server) :
    Always env rely (Disciplined nonce) (fun past _ _ => Spent past)
      past server (rejected lib request) := by
  refine (always_bind _ _).mpr ((always_service_removes lib request authorized
    past server).post_mono ?_)
  exact fun _ _ _ removed _ => removed

/-- A request with a nonce keeps the discipline, whatever happens to the server
between its steps. -/
theorem always_disciplined
    (authorized : request.authorization = some (.visible nonce))
    (server : Server) :
    Always env rely (Disciplined nonce) (fun past _ _ => Spent past)
      [] server (call lib request) := by
  unfold call
  split_ifs with unprotected
  · refine (always_bind _ _).mpr ((always_service_removes lib request authorized
      [] server).post_mono ?_)
    exact fun _ _ _ removed _ => removed
  refine (always_perform _ _).mpr fun before _ nonces after _ => ⟨rfl, ?_⟩
  rw [authorized]
  have holds : nonces.contains nonce = true →
      Holds [⟨before, .copyNonces, nonces, after⟩] nonce := fun contained =>
    ⟨_, List.mem_singleton_self _, List.contains_iff_mem.mp contained⟩
  cases query : request.queryToCheck with
  | some params =>
      simp only [HeaderValue.toStr]
      refine (always_perform _ _).mpr fun before' _ _ after' _ => ⟨trivial, ?_⟩
      rcases params with _ | ⟨signature, key⟩
      · -- the panic comes before any verification
        rintro ⟨step, member, accepted⟩
        simp only [List.nil_append, List.cons_append, List.mem_cons,
          List.not_mem_nil, or_false] at member
        rcases member with rfl | rfl <;> cases accepted
      · refine (always_bind _ _).mpr ((always_service_removes lib request
          authorized _ _).post_append.post_mono ?_)
        rintro _ response _ ⟨⟨later, rfl⟩, removed⟩
        refine (always_perform _ _).mpr fun _ _ _ _ _ => ⟨?_, fun _ =>
          removed.append _⟩
        intro accepted
        rw [Bool.and_eq_true] at accepted
        exact ((holds accepted.2).append _).append _
  | none =>
      simp only [HeaderValue.toStr]
      refine (always_perform _ _).mpr fun before' _ _ after' _ => ⟨trivial, ?_⟩
      split_ifs with tooLong
      · rintro ⟨step, member, accepted⟩
        simp only [List.nil_append, List.cons_append, List.mem_cons,
          List.not_mem_nil, or_false] at member
        rcases member with rfl | rfl <;> cases accepted
      cases request.authenticatedMessage with
      | none => exact always_rejected_removes lib request.emptied authorized _ _
      | some body =>
          cases named : (body.message.index "nonce").asStr with
          | none =>
              simp only [named]
              exact always_rejected_removes lib request.emptied authorized _ _
          | some messageNonce =>
              simp only [named]
              refine (always_perform _ _).mpr fun _ _ _ _ _ => ⟨?_, ?_⟩
              · intro accepted
                simp only [Bool.and_eq_true] at accepted
                exact (holds accepted.1.2).append _
              · split_ifs with accepted
                · refine (always_bind _ _).mpr ((always_service_removes lib
                    (request.carrying lib body.message) authorized _ _).post_mono ?_)
                  exact fun _ _ _ removed _ => removed
                · exact always_rejected_removes lib request.emptied authorized _ _

end Locally

/-! ## Nonces in the shared list -/

/-- The loop that removes the oldest nonces makes room for one. -/
theorem removeOldest_eq (nonces : List String) :
    removeOldest nonces = BoundedQueue.makeRoom nonceVecLength nonces := by
  induction nonces with
  | nil => rfl
  | cons nonce rest ih =>
      rw [BoundedQueue.makeRoom_cons, removeOldest, ih]

theorem mem_of_mem_removeOldest {nonces : List String} {nonce : String}
    (member : nonce ∈ removeOldest nonces) : nonce ∈ nonces := by
  rw [removeOldest_eq] at member
  exact (BoundedQueue.makeRoom_sublist nonces).subset member

/-- A step adds only fresh nonces to the list. -/
theorem nonces_of_answer (draw : Nat → String) (server : Server)
    (effect : Effect) :
    server.drawn ≤ (Server.answer draw server effect).2.drawn ∧
      ∀ nonce ∈ (Server.answer draw server effect).2.nonces,
        nonce ∈ server.nonces ∨
          ∃ index, server.drawn ≤ index ∧
            index < (Server.answer draw server effect).2.drawn ∧
            nonce = draw index := by
  cases effect with
  | removeNonce header =>
      exact ⟨le_rfl, fun _ member => .inl (List.mem_of_mem_filter member)⟩
  | handle call =>
      cases call with
      | requestNonce =>
          refine ⟨Nat.le_succ _, fun nonce member => ?_⟩
          rcases List.mem_append.mp member with old | new
          · exact .inl (mem_of_mem_removeOldest old)
          · exact .inr ⟨server.drawn, le_rfl, Nat.lt_succ_self _,
              List.mem_singleton.mp new⟩
      | _ => exact ⟨le_rfl, fun _ member => .inl member⟩
  | _ => exact ⟨le_rfl, fun _ member => .inl member⟩

/-- A copy is a copy of the list. -/
theorem mem_of_copied {draw : Nat → String}
    {step : Step Server Effect Effect.Answer} {nonce : String}
    (served : (Server.answer draw).env step.before step.request step.answer
      step.after)
    (copied : nonce ∈ copiedNonces step) :
    step.request = .copyNonces ∧ nonce ∈ step.before.nonces := by
  obtain ⟨before, request, answer, after⟩ := step
  cases request with
  | copyNonces =>
      have same : (before.nonces, before) = (answer, after) := served
      obtain ⟨rfl, -⟩ := Prod.mk.inj same
      exact ⟨rfl, copied⟩
  | _ => cases copied

/-- A removed nonce is off the list. -/
theorem not_mem_of_removal {draw : Nat → String}
    {step : Step Server Effect Effect.Answer} {nonce : String}
    (served : (Server.answer draw).env step.before step.request step.answer
      step.after)
    (removal : step.request = .removeNonce (.visible nonce)) :
    nonce ∉ step.after.nonces := by
  obtain ⟨before, request, answer, after⟩ := step
  obtain rfl := removal
  have same : ((), before.removeNonce (.visible nonce)) = (answer, after) := served
  obtain ⟨-, rfl⟩ := Prod.mk.inj same
  simp [Server.removeNonce, HeaderValue.equals]

/-- What holds of the running requests and the server while requests copy the
list alone. -/
structure NoncesKept {ι : Type} (requests : ι → Request) (draw : Nat → String)
    (pool : Requests ι) (server : Server) : Prop where
  /-- Nonces on the list were drawn. -/
  drawn : ∀ nonce ∈ server.nonces, ∃ index < server.drawn, nonce = draw index
  /-- Copied nonces were drawn. -/
  copied : ∀ index nonce, Holds (pool index).past nonce →
    ∃ index < server.drawn, nonce = draw index
  /-- A request passes the verification only with a copied nonce. -/
  accepted : ∀ index nonce,
    (requests index).authorization = some (.visible nonce) →
      Accepted (pool index).past → Holds (pool index).past nonce
  /-- A nonce that one of its holders removed is off the list. -/
  removed : ∀ index nonce,
    (requests index).authorization = some (.visible nonce) →
      Holds (pool index).past nonce → Removed (pool index).past →
        nonce ∉ server.nonces
  /-- Of two holders of a nonce at least one has ended without removing it. -/
  single : ∀ first second nonce, first ≠ second →
    (requests first).authorization = some (.visible nonce) →
      (requests second).authorization = some (.visible nonce) →
        Holds (pool first).past nonce → Holds (pool second).past nonce →
          Panicked (pool first) ∨ Panicked (pool second)

private theorem holds_append_singleton
    {past : List (Step Server Effect Effect.Answer)}
    {step : Step Server Effect Effect.Answer} {nonce : String}
    (holds : Holds (past ++ [step]) nonce) :
    Holds past nonce ∨ nonce ∈ copiedNonces step := by
  obtain ⟨other, member, copied⟩ := holds
  rcases List.mem_append.mp member with old | new
  · exact .inl ⟨other, old, copied⟩
  · exact .inr (List.mem_singleton.mp new ▸ copied)

private theorem removed_append_singleton
    {past : List (Step Server Effect Effect.Answer)}
    {step : Step Server Effect Effect.Answer}
    (removed : Removed (past ++ [step])) :
    Removed past ∨ step.request.isRemoval = true := by
  obtain ⟨other, member, removal⟩ := removed
  rcases List.mem_append.mp member with old | new
  · exact .inl ⟨other, old, removal⟩
  · exact .inr (List.mem_singleton.mp new ▸ removal)

section Steps

variable {ι : Type} {requests : ι → Request}
  {draw : Nat → String} {pool : Requests ι} {index : ι}
  {step : Step Server Effect Effect.Answer}
  {program : Program Effect Effect.Answer (Option Response)}

/-- When a request copies a nonce, every other holder of it has ended. -/
theorem NoncesKept.other_panicked
    (kept : NoncesKept requests draw pool step.before)
    (served : (Server.answer draw).env step.before step.request step.answer
      step.after)
    (alone : CopiesAlone requests pool index step) {other : ι} {nonce : String}
    (different : other ≠ index)
    (authorized : (requests index).authorization = some (.visible nonce))
    (otherAuthorized : (requests other).authorization = some (.visible nonce))
    (copied : nonce ∈ copiedNonces step)
    (holds : Holds (pool other).past nonce) : Panicked (pool other) := by
  obtain ⟨copies, onList⟩ := mem_of_copied served copied
  have present : ¬ Removed (pool other).past := fun removed =>
    kept.removed other nonce otherAuthorized holds removed onList
  have hasCopied : ∃ step ∈ (pool other).past, step.request = .copyNonces := by
    obtain ⟨⟨before, request, answer, after⟩, member, held⟩ := holds
    refine ⟨_, member, ?_⟩
    cases request <;> first | rfl | cases held
  rcases alone copies nonce other different authorized otherAuthorized hasCopied
    with removed | finished
  · exact absurd removed present
  · exact ⟨finished, present⟩

/-- A step that is taken adds only fresh nonces to the list. -/
theorem fresh_of_served
    (served : (Server.answer draw).env step.before step.request step.answer step.after) :
    step.before.drawn ≤ step.after.drawn ∧
      ∀ nonce ∈ step.after.nonces, nonce ∈ step.before.nonces ∨
        ∃ k, step.before.drawn ≤ k ∧ k < step.after.drawn ∧ nonce = draw k := by
  have moved : (Server.answer draw step.before step.request).2 = step.after :=
    congrArg Prod.snd served
  rw [← moved]
  exact nonces_of_answer draw step.before step.request

/-- What was drawn before a step was drawn before the next one. -/
theorem drawn_of_served
    (served : (Server.answer draw).env step.before step.request step.answer step.after)
    {nonce : String} (old : ∃ k < step.before.drawn, nonce = draw k) :
    ∃ k < step.after.drawn, nonce = draw k := by
  obtain ⟨grows, -⟩ := fresh_of_served served
  obtain ⟨k, drawn, same⟩ := old
  exact ⟨k, by omega, same⟩

/-- A nonce that was drawn before does not come back. -/
theorem not_mem_of_served (distinct : Function.Injective draw)
    (served : (Server.answer draw).env step.before step.request step.answer step.after)
    {nonce : String} (old : ∃ k < step.before.drawn, nonce = draw k)
    (off : nonce ∉ step.before.nonces) : nonce ∉ step.after.nonces := by
  obtain ⟨-, fresh⟩ := fresh_of_served served
  intro member
  obtain ⟨k, drawn, rfl⟩ := old
  rcases fresh _ member with before | ⟨later, from_, _, same⟩
  · exact off before
  · have := distinct same
    omega

/-- A request passes the verification in a step only with a nonce it has copied. -/
theorem NoncesKept.accepted_step {nonce : String}
    (kept : NoncesKept requests draw pool step.before)
    (authorized : (requests index).authorization = some (.visible nonce))
    (disciplined : Disciplined nonce (pool index).past step)
    (accepted : Accepted ((pool index).past ++ [step])) :
    Holds ((pool index).past ++ [step]) nonce := by
  obtain ⟨taken, member, acceptance⟩ := accepted
  apply Holds.append
  rcases List.mem_append.mp member with old | new
  · exact kept.accepted index nonce authorized ⟨taken, old, acceptance⟩
  · obtain rfl := List.mem_singleton.mp new
    obtain ⟨before, request, answer, after⟩ := taken
    cases request with
    | verification accepted => exact disciplined acceptance
    | _ => cases acceptance

/-- A request that has removed its nonce leaves it off the list in its step. -/
theorem NoncesKept.removed_step (distinct : Function.Injective draw) {nonce : String}
    (kept : NoncesKept requests draw pool step.before)
    (served : (Server.answer draw).env step.before step.request step.answer step.after)
    (authorized : (requests index).authorization = some (.visible nonce))
    (disciplined : Disciplined nonce (pool index).past step)
    (holds : Holds ((pool index).past ++ [step]) nonce)
    (removed : Removed ((pool index).past ++ [step])) :
    nonce ∉ step.after.nonces := by
  obtain ⟨before, request, answer, after⟩ := step
  cases request with
  | removeNonce header =>
      obtain rfl : header = .visible nonce := disciplined
      exact not_mem_of_removal served rfl
  | copyNonces =>
      -- a copy is the first step, and removes nothing
      have past : (pool index).past = [] := disciplined
      rcases removed_append_singleton removed with old | removal
      · obtain ⟨_, member, _⟩ := old
        rw [past] at member
        cases member
      · cases removal
  | _ =>
      have held := (holds_append_singleton holds).resolve_right nofun
      have off := (removed_append_singleton removed).resolve_right nofun
      exact not_mem_of_served distinct served (kept.copied index nonce held)
        (kept.removed index nonce authorized held off)

/-- Another holder of a nonce that a request holds after its step has ended without
removing the nonce. -/
theorem NoncesKept.other_panicked_step
    (kept : NoncesKept requests draw pool step.before)
    (served : (Server.answer draw).env step.before step.request step.answer step.after)
    (alone : CopiesAlone requests pool index step)
    (running : ¬ (pool index).Finished) {other : ι} {nonce : String}
    (different : other ≠ index)
    (authorized : (requests index).authorization = some (.visible nonce))
    (otherAuthorized : (requests other).authorization = some (.visible nonce))
    (holds : Holds ((pool index).past ++ [step]) nonce)
    (otherHolds : Holds (pool other).past nonce) : Panicked (pool other) := by
  rcases holds_append_singleton holds with old | copied
  · have single := kept.single index other nonce different.symm authorized otherAuthorized
      old otherHolds
    apply single.resolve_left
    intro panicked
    exact running panicked.1
  · exact kept.other_panicked served alone different authorized otherAuthorized copied
      otherHolds

variable [DecidableEq ι]

/-- One step of a request preserves what holds of the nonces. -/
theorem NoncesKept.advance (distinct : Function.Injective draw)
    (kept : NoncesKept requests draw pool step.before)
    (served : (Server.answer draw).env step.before step.request step.answer
      step.after)
    (alone : CopiesAlone requests pool index step)
    (disciplined : ∀ nonce, (requests index).authorization = some (.visible nonce) →
      Disciplined nonce (pool index).past step)
    (running : ¬ (pool index).Finished) :
    NoncesKept requests draw (pool.advance index step program) step.after := by
  constructor
  · intro nonce member
    by_cases old : nonce ∈ step.before.nonces
    · exact drawn_of_served served (kept.drawn nonce old)
    · obtain ⟨-, fresh⟩ := fresh_of_served served
      obtain ⟨k, -, drawn, same⟩ := (fresh nonce member).resolve_left old
      exact ⟨k, drawn, same⟩
  · intro other nonce holds
    by_cases same : other = index
    · subst other
      rw [Pool.advance_same] at holds
      rcases holds_append_singleton holds with old | copied
      · exact drawn_of_served served (kept.copied index nonce old)
      · exact drawn_of_served served (kept.drawn nonce (mem_of_copied served copied).2)
    · rw [Pool.advance_other _ same] at holds
      exact drawn_of_served served (kept.copied other nonce holds)
  · intro other nonce authorized accepted
    by_cases same : other = index
    · subst other
      rw [Pool.advance_same] at accepted ⊢
      exact kept.accepted_step authorized (disciplined nonce authorized) accepted
    · rw [Pool.advance_other _ same] at accepted ⊢
      exact kept.accepted other nonce authorized accepted
  · intro other nonce authorized holds removed
    by_cases same : other = index
    · subst other
      rw [Pool.advance_same] at holds removed
      exact kept.removed_step distinct served authorized (disciplined nonce authorized)
        holds removed
    · rw [Pool.advance_other _ same] at holds removed
      exact not_mem_of_served distinct served (kept.copied other nonce holds)
        (kept.removed other nonce authorized holds removed)
  · intro first second nonce different firstAuthorized secondAuthorized
      firstHolds secondHolds
    by_cases firstSame : first = index
    · subst first
      rw [Pool.advance_same] at firstHolds
      rw [Pool.advance_other _ different.symm] at secondHolds ⊢
      exact .inr (kept.other_panicked_step served alone running different.symm
        firstAuthorized secondAuthorized firstHolds secondHolds)
    by_cases secondSame : second = index
    · subst second
      rw [Pool.advance_same] at secondHolds
      rw [Pool.advance_other _ different] at firstHolds ⊢
      exact .inl (kept.other_panicked_step served alone running different
        secondAuthorized firstAuthorized secondHolds firstHolds)
    rw [Pool.advance_other _ firstSame] at firstHolds ⊢
    rw [Pool.advance_other _ secondSame] at secondHolds ⊢
    exact kept.single first second nonce different firstAuthorized secondAuthorized
      firstHolds secondHolds

end Steps

/-- A request as it arrives keeps the discipline of its nonce. -/
private theorem start_locally (lib : Libraries) (draw : Nat → String)
    (request : Request) :
    (Thread.start (call lib request)).Locally (Server.answer draw).env
      (fun past step => ∀ nonce, request.authorization = some (.visible nonce) →
        Disciplined nonce past step)
      (fun past _ => ∀ nonce, request.authorization = some (.visible nonce) →
        Spent past) := by
  intro server
  by_cases visible : ∃ nonce, request.authorization = some (.visible nonce)
  · obtain ⟨nonce, authorized⟩ := visible
    have unique (other : String)
        (found : request.authorization = some (.visible other)) : other = nonce := by
      rw [authorized] at found
      injection found with header
      injection header with same
      exact same.symm
    refine (always_disciplined lib request authorized server).mono ?_ ?_
    · intro past step disciplined other found
      exact unique other found ▸ disciplined
    · exact fun past result server spent _ _ => spent
  · exact always_of_forall
      (fun _ _ nonce authorized => absurd ⟨nonce, authorized⟩ visible)
      (fun _ _ _ nonce authorized => absurd ⟨nonce, authorized⟩ visible) _

/-- In every interleaving in which requests copy the list of nonces alone, a
nonce lets at most one request through. -/
theorem nonce_lets_one_through {ι : Type} [DecidableEq ι] (lib : Libraries)
    (draw : Nat → String) (distinct : Function.Injective draw)
    (requests : ι → Request) (db : Database)
    {trace : List (ι × Step Server Effect Effect.Answer)} {pool : Requests ι}
    {server : Server}
    (run : Interleaved (Server.answer draw).env (CopiesAlone requests)
      (fun index => Thread.start (call lib (requests index)))
      (.initial db) trace pool server) :
    ∀ nonce first second, LetThrough (requests first) (pool first) nonce →
      LetThrough (requests second) (pool second) nonce → first = second := by
  have locally := fun index => start_locally lib draw (requests index)
  have kept : NoncesKept requests draw pool server := by
    refine run.invariant (NoncesKept requests draw) locally ?_ ?_
    · constructor
      · intro nonce member
        cases member
      all_goals
        intro index
        simp [Thread.start, Holds, Accepted]
    · intro current index step program kept _ served alone disciplined running
      exact kept.advance distinct served alone disciplined running
  -- a request that was let through cannot have ended without removing its nonce
  have removes {index : ι} {nonce : String}
      (through : LetThrough (requests index) (pool index) nonce) :
      ¬ Panicked (pool index) := by
    rintro ⟨⟨value, returned⟩, present⟩
    have spent := (run.locally locally index).of_ret server returned
    exact present (spent nonce through.1 through.2.1)
  intro nonce first second firstThrough secondThrough
  by_contra different
  rcases kept.single first second nonce different firstThrough.1 secondThrough.1
      (kept.accepted first nonce firstThrough.1 firstThrough.2.1)
      (kept.accepted second nonce secondThrough.1 secondThrough.2.1)
    with panicked | panicked
  · exact removes firstThrough panicked
  · exact removes secondThrough panicked

/-! ## Two requests that overlap -/

/-- Nonces of growing length. -/
def sampleDraw (index : Nat) : String :=
  String.ofList (List.replicate (index + 1) 'n')

theorem sampleDraw_injective : Function.Injective sampleDraw := by
  intro first second same
  have lists := congrArg String.length same
  simpa [sampleDraw] using lists

/-- `GET /contracts?key=alice` with the first nonce and its signature. -/
def sampleGet : Request :=
  ⟨.get, "/contracts", [("key", "alice"), ("signature", "alice:n")],
    some (.visible "n"), false, .empty⟩

/-- One request for a nonce, without a header, and two that use it. -/
def sampleRequests : Fin 3 → Request
  | 0 => ⟨.get, "/request_nonce", [], none, false, .empty⟩
  | _ => sampleGet

/-- The requests before their first step. -/
def sampleStart : Requests (Fin 3) :=
  fun index => Thread.start (call .symbolic (sampleRequests index))

/-- The requests after they took turns in an order. -/
def sampleRun (order : List (Fin 3)) : Requests (Fin 3) × Server :=
  sampleStart.schedule (Server.answer sampleDraw) order (.initial .empty)

/-- The request for a nonce, then the others one after the other. -/
def sampleInTurn : List (Fin 3) := [0, 1, 1, 1, 1, 1, 2, 2, 2, 2, 2]

/-- Two requests that copy the list of nonces before either removes the nonce
are both let through. -/
theorem overlapping_requests_let_through :
    ¬ ∀ (ι : Type) [DecidableEq ι] (lib : Libraries) (draw : Nat → String)
      (requests : ι → Request) (db : Database)
      (trace : List (ι × Step Server Effect Effect.Answer)) (pool : Requests ι)
      (server : Server), Function.Injective draw →
      Interleaved (Server.answer draw).env AnyStep
        (fun index => Thread.start (call lib (requests index)))
        (.initial db) trace pool server →
      ∀ nonce first second, LetThrough (requests first) (pool first) nonce →
        LetThrough (requests second) (pool second) nonce → first = second := by
  intro claimed
  have run : ∃ trace, Interleaved (Server.answer sampleDraw).env AnyStep
      sampleStart (.initial .empty) trace
      (sampleRun [0, 1, 2, 1, 1, 1, 1, 2, 2, 2, 2]).1
      (sampleRun [0, 1, 2, 1, 1, 1, 1, 2, 2, 2, 2]).2 :=
    ⟨_, interleaved_schedule _ (fun _ _ => rfl) _ (metAlong_anyStep ..) .idle⟩
  obtain ⟨trace, run⟩ := run
  have same := claimed (Fin 3) .symbolic sampleDraw sampleRequests .empty trace _ _
    sampleDraw_injective run "n" 1 2
    ⟨by decide, by unfold Accepted; decide, by decide⟩
    ⟨by decide, by unfold Accepted; decide, by decide⟩
  exact absurd same (by decide)

private theorem sampleInTurn_alone :
    sampleStart.MetAlong (Server.answer sampleDraw) (CopiesAlone sampleRequests)
      sampleInTurn (.initial .empty) := by
  refine ⟨nofun, ?_, nofun, nofun, nofun, nofun, ?_, nofun, nofun, nofun, nofun,
    trivial⟩
  · rintro - nonce other different - otherAuthorized ⟨step, member, -⟩
    match other with
    | 0 => cases otherAuthorized
    | 1 => exact absurd rfl different
    | 2 => cases member
  · rintro - nonce other different - otherAuthorized -
    match other with
    | 0 => cases otherAuthorized
    | 1 => exact .inl (by unfold Removed; decide)
    | 2 => exact absurd rfl different

/-- A nonce that one request has used does not let a later one through. -/
theorem nonce_lets_one_through_sampleInTurn :
    LetThrough sampleGet ((sampleRun sampleInTurn).1 1) "n" ∧
      ¬ LetThrough sampleGet ((sampleRun sampleInTurn).1 2) "n" := by
  have run : ∃ trace, Interleaved (Server.answer sampleDraw).env
      (CopiesAlone sampleRequests) sampleStart (.initial .empty) trace
      (sampleRun sampleInTurn).1 (sampleRun sampleInTurn).2 :=
    ⟨_, interleaved_schedule _ (fun _ _ => rfl) _ sampleInTurn_alone .idle⟩
  obtain ⟨trace, run⟩ := run
  have first : LetThrough sampleGet ((sampleRun sampleInTurn).1 1) "n" :=
    ⟨by decide, by unfold Accepted; decide, by decide⟩
  refine ⟨first, fun second => ?_⟩
  have same := nonce_lets_one_through .symbolic sampleDraw sampleDraw_injective
    sampleRequests .empty run "n" 1 2 first second
  exact absurd same (by decide)

end Storage

end DlcStack
