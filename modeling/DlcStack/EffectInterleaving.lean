import DlcStack.EffectProgram
import Mathlib.Data.List.Induction
import Mathlib.Logic.Function.Basic

/-!
# Programs running at the same time

A pool holds one program for each index, with the steps it has taken so far.
An interleaving lets one program of the pool make one request at a time, in any
order.  A verification condition proved of each program alone, with everything
else allowed to move the state, holds of every step of every interleaving.
-/

namespace Program

variable {Req : Type} {Ans : Req → Type} {α σ ι : Type} [DecidableEq ι]

/-- A running program and the steps it has taken. -/
structure Thread (σ : Type) (Req : Type) (Ans : Req → Type) (α : Type) where
  program : Program Req Ans α
  past : List (Step σ Req Ans)

/-- A program that has not taken a step. -/
def Thread.start (program : Program Req Ans α) : Thread σ Req Ans α :=
  ⟨program, []⟩

/-- The thread has returned. -/
def Thread.Finished (thread : Thread σ Req Ans α) : Prop :=
  ∃ value, thread.program = ret value

abbrev Pool (ι σ : Type) (Req : Type) (Ans : Req → Type) (α : Type) :=
  ι → Thread σ Req Ans α

/-- The pool after `index` has taken a step and continues with `program`. -/
def Pool.advance (pool : Pool ι σ Req Ans α) (index : ι)
    (step : Step σ Req Ans) (program : Program Req Ans α) :
    Pool ι σ Req Ans α :=
  Function.update pool index ⟨program, (pool index).past ++ [step]⟩

@[simp]
theorem Pool.advance_same (pool : Pool ι σ Req Ans α) (index : ι)
    (step : Step σ Req Ans) (program : Program Req Ans α) :
    pool.advance index step program index =
      ⟨program, (pool index).past ++ [step]⟩ :=
  Function.update_self ..

@[simp]
theorem Pool.advance_other (pool : Pool ι σ Req Ans α) {index other : ι}
    (different : other ≠ index) (step : Step σ Req Ans)
    (program : Program Req Ans α) :
    pool.advance index step program other = pool other :=
  Function.update_of_ne different ..

/-- The pool and state reached by an interleaving whose every step meets a
condition on the pool it is taken in, with the steps in order. -/
inductive Interleaved (env : Environment σ Req Ans)
    (meets : Pool ι σ Req Ans α → ι → Step σ Req Ans → Prop)
    (pool : Pool ι σ Req Ans α) (state : σ) :
    List (ι × Step σ Req Ans) → Pool ι σ Req Ans α → σ → Prop
  | idle : Interleaved env meets pool state [] pool state
  | move {trace : List (ι × Step σ Req Ans)} {current : Pool ι σ Req Ans α}
      {before after : σ} {index : ι} {request : Req}
      {next : Ans request → Program Req Ans α} {answer : Ans request}
      (earlier : Interleaved env meets pool state trace current before)
      (asks : (current index).program = ask request next)
      (served : env before request answer after)
      (met : meets current index ⟨before, request, answer, after⟩) :
      Interleaved env meets pool state
        (trace ++ [(index, ⟨before, request, answer, after⟩)])
        (current.advance index ⟨before, request, answer, after⟩ (next answer))
        after

/-- The steps of one thread in a trace. -/
def stepsOf (index : ι) (trace : List (ι × Step σ Req Ans)) :
    List (Step σ Req Ans) :=
  trace.filterMap fun taken => if taken.1 = index then some taken.2 else none

/-- A thread remembers the steps it took. -/
theorem Interleaved.past {env : Environment σ Req Ans}
    {meets : Pool ι σ Req Ans α → ι → Step σ Req Ans → Prop}
    {pool current : Pool ι σ Req Ans α} {state final : σ}
    {trace : List (ι × Step σ Req Ans)}
    (run : Interleaved env meets pool state trace current final) (index : ι) :
    (current index).past = (pool index).past ++ stepsOf index trace := by
  induction run with
  | idle => simp [stepsOf]
  | @move trace current before after other request next answer _ _ _ _ ih =>
      by_cases same : other = index
      · subst same
        rw [Pool.advance_same, ih]
        simp [stepsOf]
      · rw [Pool.advance_other _ (Ne.symm same), ih]
        simp [stepsOf, same]

/-- The condition that every step meets. -/
def AnyStep : Pool ι σ Req Ans α → ι → Step σ Req Ans → Prop :=
  fun _ _ _ => True

/-- A thread that satisfies the verification condition from here on, whatever
other parties do to the state. -/
def Thread.Locally (env : Environment σ Req Ans)
    (good : List (Step σ Req Ans) → Step σ Req Ans → Prop)
    (post : List (Step σ Req Ans) → α → Prop)
    (thread : Thread σ Req Ans α) : Prop :=
  ∀ state, Always env (fun _ _ => True) good
    (fun past value _ => post past value) thread.past state thread.program

section Locally

variable {env : Environment σ Req Ans}
  {meets : Pool ι σ Req Ans α → ι → Step σ Req Ans → Prop}
  {good : ι → List (Step σ Req Ans) → Step σ Req Ans → Prop}
  {post : ι → List (Step σ Req Ans) → α → Prop}

/-- One step of a thread is good, and leaves the thread satisfying its
condition. -/
theorem Thread.Locally.advance {thread : Thread σ Req Ans α}
    {good : List (Step σ Req Ans) → Step σ Req Ans → Prop}
    {post : List (Step σ Req Ans) → α → Prop}
    (holds : thread.Locally env good post) {request : Req}
    {next : Ans request → Program Req Ans α} {before after : σ}
    {answer : Ans request} (asks : thread.program = ask request next)
    (served : env before request answer after) :
    good thread.past ⟨before, request, answer, after⟩ ∧
      (⟨next answer, thread.past ++ [⟨before, request, answer, after⟩]⟩ :
        Thread σ Req Ans α).Locally env good post := by
  have condition := holds before
  rw [asks] at condition
  refine ⟨(condition before trivial answer after served).1, ?_⟩
  intro state
  have later := (condition before trivial answer after served).2
  cases continuation : next answer with
  | ret value =>
      rw [continuation] at later
      exact later
  | ask request next =>
      rw [continuation] at later
      exact later

/-- What a returned thread's condition says. -/
theorem Thread.Locally.of_ret {thread : Thread σ Req Ans α}
    {good : List (Step σ Req Ans) → Step σ Req Ans → Prop}
    {post : List (Step σ Req Ans) → α → Prop}
    (holds : thread.Locally env good post) {value : α} (state : σ)
    (returned : thread.program = ret value) : post thread.past value := by
  have condition := holds state
  rw [returned] at condition
  exact condition

/-- Conditions proved of each thread alone hold along every interleaving. -/
theorem Interleaved.locally {pool current : Pool ι σ Req Ans α} {state final : σ}
    {trace : List (ι × Step σ Req Ans)}
    (locally : ∀ index, (pool index).Locally env (good index) (post index))
    (run : Interleaved env meets pool state trace current final) :
    ∀ index, (current index).Locally env (good index) (post index) := by
  induction run with
  | idle => exact locally
  | @move trace current before after index request next answer _ asks served _ ih =>
      intro other
      by_cases same : other = index
      · subst other
        rw [Pool.advance_same]
        exact ((ih index).advance asks served).2
      · rw [Pool.advance_other _ same]
        exact ih other

/-- The rule for invariants of an interleaving: the invariant may use the
conditions of all threads, and that the step taken is good. -/
theorem Interleaved.invariant {pool current : Pool ι σ Req Ans α}
    {state final : σ} {trace : List (ι × Step σ Req Ans)}
    (invariant : Pool ι σ Req Ans α → σ → Prop)
    (locally : ∀ index, (pool index).Locally env (good index) (post index))
    (initially : invariant pool state)
    (preserved : ∀ (current : Pool ι σ Req Ans α) (index : ι)
      (step : Step σ Req Ans) (program : Program Req Ans α),
      invariant current step.before →
      (∀ index, (current index).Locally env (good index) (post index)) →
      env step.before step.request step.answer step.after →
      meets current index step →
      good index (current index).past step →
      ¬ (current index).Finished →
      invariant (current.advance index step program) step.after)
    (run : Interleaved env meets pool state trace current final) :
    invariant current final := by
  induction run with
  | idle => exact initially
  | @move trace current before after index request next answer earlier asks served met ih =>
      have conditions := earlier.locally locally
      refine preserved current index ⟨before, request, answer, after⟩ _ ih
        conditions served met ((conditions index).advance asks served).1 ?_
      rintro ⟨value, returned⟩
      rw [asks] at returned
      cases returned

/-- Every step of an interleaving is good relative to the steps that its own
thread took before it. -/
theorem Interleaved.step_good {pool current : Pool ι σ Req Ans α}
    {state final : σ} {trace : List (ι × Step σ Req Ans)}
    (locally : ∀ index, (pool index).Locally env (good index) (post index))
    (run : Interleaved env meets pool state trace current final)
    {front back : List (ι × Step σ Req Ans)} {index : ι} {step : Step σ Req Ans}
    (split : trace = front ++ (index, step) :: back) :
    good index ((pool index).past ++ stepsOf index front) step ∧
      env step.before step.request step.answer step.after := by
  induction run generalizing back with
  | idle => simp at split
  | @move trace current before after other request next answer earlier asks served _ ih =>
      cases back using List.reverseRecOn with
      | nil =>
          obtain ⟨rfl, same⟩ := List.append_inj' split rfl
          obtain ⟨rfl, rfl⟩ := Prod.mk.inj (List.singleton_inj.mp same)
          rw [← earlier.past]
          exact ⟨((earlier.locally locally _).advance asks served).1, served⟩
      | append_singleton back last =>
          have split : trace ++ [(other, ⟨before, request, answer, after⟩)] =
              (front ++ (index, step) :: back) ++ [last] := by simpa using split
          exact ih (List.append_inj' split rfl).1

end Locally

/-! ## Schedules -/

/-- Let one thread make its next request against a responder. -/
def Pool.turn (responder : Responder σ Req Ans) (index : ι)
    (pool : Pool ι σ Req Ans α) (state : σ) : Pool ι σ Req Ans α × σ :=
  match (pool index).program with
  | ret _ => (pool, state)
  | ask request next =>
      (pool.advance index
          ⟨state, request, (responder state request).1,
            (responder state request).2⟩
          (next (responder state request).1),
        (responder state request).2)

/-- Let the threads take turns in the order of a schedule. -/
def Pool.schedule (responder : Responder σ Req Ans) :
    List ι → Pool ι σ Req Ans α → σ → Pool ι σ Req Ans α × σ
  | [], pool, state => (pool, state)
  | index :: rest, pool, state =>
      Pool.schedule responder rest (pool.turn responder index state).1
        (pool.turn responder index state).2

/-- The steps taken along a schedule. -/
def Pool.trace (responder : Responder σ Req Ans) :
    List ι → Pool ι σ Req Ans α → σ → List (ι × Step σ Req Ans)
  | [], _, _ => []
  | index :: rest, pool, state =>
      (match (pool index).program with
        | ret _ => []
        | ask request _ =>
            [(index, ⟨state, request, (responder state request).1,
              (responder state request).2⟩)]) ++
        Pool.trace responder rest (pool.turn responder index state).1
          (pool.turn responder index state).2

/-- Every step of a schedule meets a condition on the pool it is taken in. -/
def Pool.MetAlong (responder : Responder σ Req Ans)
    (meets : Pool ι σ Req Ans α → ι → Step σ Req Ans → Prop) :
    List ι → Pool ι σ Req Ans α → σ → Prop
  | [], _, _ => True
  | index :: rest, pool, state =>
      (match (pool index).program with
        | ret _ => True
        | ask request _ =>
            meets pool index ⟨state, request, (responder state request).1,
              (responder state request).2⟩) ∧
        Pool.MetAlong responder meets rest (pool.turn responder index state).1
          (pool.turn responder index state).2

/-- A schedule is an interleaving of every environment that allows the
responder's answers. -/
theorem interleaved_schedule {env : Environment σ Req Ans}
    {meets : Pool ι σ Req Ans α → ι → Step σ Req Ans → Prop}
    (responder : Responder σ Req Ans)
    (allowed : ∀ state request,
      env state request (responder state request).1
        (responder state request).2)
    {pool current : Pool ι σ Req Ans α} {state middle : σ}
    {trace : List (ι × Step σ Req Ans)} (schedule : List ι)
    (met : current.MetAlong responder meets schedule middle)
    (run : Interleaved env meets pool state trace current middle) :
    Interleaved env meets pool state
      (trace ++ current.trace responder schedule middle)
      (current.schedule responder schedule middle).1
      (current.schedule responder schedule middle).2 := by
  induction schedule generalizing trace current middle with
  | nil => simpa [Pool.trace, Pool.schedule] using run
  | cons index rest ih =>
      obtain ⟨metHere, metLater⟩ := met
      unfold Pool.schedule Pool.trace
      unfold Pool.turn at metLater ⊢
      cases asks : (current index).program with
      | ret value =>
          rw [asks] at metLater
          exact ih metLater run
      | ask request next =>
          rw [asks] at metHere metLater
          rw [← List.append_assoc]
          exact ih metLater (run.move asks (allowed middle request) metHere)

/-- The threads that take no turn wait. -/
theorem Pool.schedule_other (responder : Responder σ Req Ans) {index : ι}
    (schedule : List ι) (waits : index ∉ schedule) (pool : Pool ι σ Req Ans α) (state : σ) :
    (pool.schedule responder schedule state).1 index = pool index := by
  induction schedule generalizing pool state with
  | nil => rfl
  | cons first rest ih =>
      obtain ⟨different, waits⟩ := not_or.mp (mt List.mem_cons.mpr waits)
      rw [Pool.schedule, ih waits]
      unfold Pool.turn
      cases (pool first).program with
      | ret value => rfl
      | ask request next => exact Pool.advance_other _ different _ _

theorem metAlong_anyStep (responder : Responder σ Req Ans)
    (schedule : List ι) (pool : Pool ι σ Req Ans α) (state : σ) :
    pool.MetAlong responder AnyStep schedule state := by
  induction schedule generalizing pool state with
  | nil => trivial
  | cons index rest ih =>
      refine ⟨?_, ih _ _⟩
      cases (pool index).program <;> trivial

end Program
