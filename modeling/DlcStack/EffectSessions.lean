import DlcStack.EffectProgram
import Mathlib.Data.List.Forall2
import Mathlib.Data.List.Induction

/-!
# Runs in sequence

The steps of a run are linked: each starts in the state in which the one before
it ended.  Operations that run one after the other, each alone and to its end,
have the history of all their steps, and an invariant that each of them
preserves holds of the history of any number of them.
-/

namespace Program

variable {Req : Type} {Ans : Req → Type} {α σ : Type}

/-- The environment where every step meets a condition. -/
def Environment.restrict (env : Environment σ Req Ans)
    (meets : Step σ Req Ans → Prop) : Environment σ Req Ans :=
  fun before request answer after =>
    env before request answer after ∧ meets ⟨before, request, answer, after⟩

/-- The environment where others may move the state after every step. -/
def Environment.amidst (env : Environment σ Req Ans) (moves : σ → σ → Prop) :
    Environment σ Req Ans :=
  fun before request answer after =>
    ∃ middle, env before request answer middle ∧ moves middle after

/-- A run is one of every environment that allows more. -/
theorem Runs.weaken {env env' : Environment σ Req Ans} {program : Program Req Ans α}
    {start final : σ} {steps : List (Step σ Req Ans)} {result : α}
    (run : Runs env program start steps result final)
    (allowed : ∀ before request answer after, env before request answer after →
      env' before request answer after) :
    Runs env' program start steps result final := by
  induction program generalizing start steps with
  | ret value => exact run
  | ask request next ih =>
      obtain ⟨answer, middle, rest, served, rfl, run⟩ := run
      exact ⟨answer, middle, rest, allowed _ _ _ _ served, rfl, ih answer run⟩

/-- A run all of whose steps meet a condition. -/
theorem Runs.restrict {env : Environment σ Req Ans}
    {meets : Step σ Req Ans → Prop} {program : Program Req Ans α}
    {start final : σ} {steps : List (Step σ Req Ans)} {result : α}
    (run : Runs env program start steps result final)
    (met : ∀ step ∈ steps, meets step) :
    Runs (env.restrict meets) program start steps result final := by
  induction program generalizing start steps with
  | ret value => exact run
  | ask request next ih =>
      obtain ⟨answer, middle, rest, served, rfl, run⟩ := run
      exact ⟨answer, middle, rest, ⟨served, met _ (by simp)⟩, rfl,
        ih answer run fun step member => met step (List.mem_cons_of_mem _ member)⟩

/-- The run of a program that goes on when the first part fails. -/
theorem runs_run_lift_bind {ε β : Type} {env : Environment σ Req Ans}
    (program : Program Req Ans α) (rest : α → ExceptT ε (Program Req Ans) β)
    {start final : σ} {steps : List (Step σ Req Ans)} {result : Except ε β} :
    Runs env (ExceptT.lift program >>= rest).run start steps result final ↔
      ∃ value middle front back,
        Runs env program start front value middle ∧
          Runs env (rest value).run middle back result final ∧
          steps = front ++ back := by
  rw [ExceptT.run_bind_lift, runs_bind]

/-- The run of a program that ends with the first error. -/
theorem runs_run_bind {ε β : Type} {env : Environment σ Req Ans}
    (program : ExceptT ε (Program Req Ans) α)
    (rest : α → ExceptT ε (Program Req Ans) β)
    {start final : σ} {steps : List (Step σ Req Ans)} {result : Except ε β}
    (run : Runs env (program >>= rest).run start steps result final) :
    (∃ error, Runs env program.run start steps (.error error) final ∧
      result = .error error) ∨
    ∃ value middle front back,
      Runs env program.run start front (.ok value) middle ∧
        Runs env (rest value).run middle back result final ∧
        steps = front ++ back := by
  rw [ExceptT.run_bind, runs_bind] at run
  obtain ⟨answer, middle, front, back, first, second, rfl⟩ := run
  cases answer with
  | ok value => exact .inr ⟨value, middle, front, back, first, second, rfl⟩
  | error error =>
      obtain ⟨rfl, rfl, rfl⟩ := second
      exact .inl ⟨error, by simpa using first, rfl⟩

/-- The run of a program that meets no error. -/
theorem runs_run_bind_ok {ε β : Type} {env : Environment σ Req Ans}
    (program : ExceptT ε (Program Req Ans) α)
    (rest : α → ExceptT ε (Program Req Ans) β)
    {start final : σ} {steps : List (Step σ Req Ans)} {result : β}
    (run : Runs env (program >>= rest).run start steps (.ok result) final) :
    ∃ value middle front back,
      Runs env program.run start front (.ok value) middle ∧
        Runs env (rest value).run middle back (.ok result) final ∧
        steps = front ++ back := by
  rcases runs_run_bind program rest run with ⟨error, -, failed⟩ | succeeds
  · cases failed
  · exact succeeds

/-- A run over the elements of a list that meets no error relates each element to its
result, by a relation that more steps do not break. -/
theorem runs_run_mapM {ε β γ : Type} {env : Environment σ Req Ans}
    {program : γ → ExceptT ε (Program Req Ans) β}
    {relates : List (Step σ Req Ans) → γ → β → Prop} {good : Step σ Req Ans → Prop}
    (mono : ∀ {front steps} element value, front ⊆ steps →
      relates front element value → relates steps element value)
    (each : ∀ element before steps value after,
      Runs env (program element).run before steps (.ok value) after →
        relates steps element value ∧ ∀ step ∈ steps, good step)
    (elements : List γ) {start final : σ} {steps : List (Step σ Req Ans)}
    {results : List β}
    (run : Runs env (elements.mapM program).run start steps (.ok results) final) :
    List.Forall₂ (relates steps) elements results ∧ ∀ step ∈ steps, good step := by
  induction elements generalizing start steps results with
  | nil =>
      obtain ⟨rfl, returned, -⟩ := run
      obtain rfl := Except.ok.inj returned
      exact ⟨.nil, by simp⟩
  | cons element rest ih =>
      rw [List.mapM_cons] at run
      obtain ⟨value, middle, front, later, first, second, rfl⟩ := runs_run_bind_ok _ _ run
      obtain ⟨values, last, back, none, others, ended, rfl⟩ := runs_run_bind_ok _ _ second
      obtain ⟨rfl, returned, rfl⟩ := ended
      obtain rfl := Except.ok.inj returned
      rw [List.append_nil]
      obtain ⟨related, goodFront⟩ := each _ _ _ _ _ first
      obtain ⟨allRelated, goodBack⟩ := ih others
      constructor
      · apply List.Forall₂.cons
        · exact mono _ _ (List.subset_append_left front back) related
        · apply List.Forall₂.imp _ allRelated
          intro other result
          exact mono _ _ (List.subset_append_right front back)
      · intro step member
        rcases List.mem_append.mp member with earlier | later
        · exact goodFront step earlier
        · exact goodBack step later

/-- A list is what comes before one of its elements, the element and the rest. -/
theorem split_get {β : Type} (list : List β) (index : Fin list.length) :
    list = list.take index ++ list.get index :: list.drop (index + 1) := by
  rw [List.get_eq_getElem, ← List.drop_eq_getElem_cons, List.take_append_drop]

/-- Each step is good relative to the steps before it. -/
def EachStep (good : List (Step σ Req Ans) → Step σ Req Ans → Prop)
    (steps : List (Step σ Req Ans)) : Prop :=
  ∀ front step back, steps = front ++ step :: back → good front step

theorem eachStep_nil {good : List (Step σ Req Ans) → Step σ Req Ans → Prop} :
    EachStep good [] := by
  intro front step back split
  simp at split

theorem eachStep_snoc {good : List (Step σ Req Ans) → Step σ Req Ans → Prop}
    {steps : List (Step σ Req Ans)} {last : Step σ Req Ans} :
    EachStep good (steps ++ [last]) ↔ EachStep good steps ∧ good steps last := by
  constructor
  · intro each
    refine ⟨fun front step back split => ?_, each steps last [] rfl⟩
    exact each front step (back ++ [last]) (by simp [split])
  · rintro ⟨each, goodLast⟩ front step back split
    cases back using List.reverseRecOn with
    | nil =>
        obtain ⟨rfl, same⟩ := List.append_inj' split rfl
        obtain rfl := List.singleton_inj.mp same
        exact goodLast
    | append_singleton back other =>
        have split : steps ++ [last] = (front ++ step :: back) ++ [other] := by
          simpa using split
        exact each front step back (List.append_inj' split rfl).1

theorem eachStep_append {good : List (Step σ Req Ans) → Step σ Req Ans → Prop}
    {front back : List (Step σ Req Ans)} :
    EachStep good (front ++ back) ↔
      EachStep good front ∧ EachStep (fun past => good (front ++ past)) back := by
  induction back using List.reverseRecOn with
  | nil => simp [eachStep_nil]
  | append_singleton back last ih =>
      rw [← List.append_assoc, eachStep_snoc, eachStep_snoc, ih, and_assoc]

/-- Steps each of which starts where the one before it ended. -/
def Linked (env : Environment σ Req Ans) :
    σ → List (Step σ Req Ans) → σ → Prop
  | start, [], final => final = start
  | start, step :: rest, final =>
      step.before = start ∧
        env step.before step.request step.answer step.after ∧
          Linked env step.after rest final

theorem linked_append {env : Environment σ Req Ans}
    {front back : List (Step σ Req Ans)} {start final : σ} :
    Linked env start (front ++ back) final ↔
      ∃ middle, Linked env start front middle ∧ Linked env middle back final := by
  induction front generalizing start with
  | nil => simp [Linked]
  | cons step front ih =>
      simp only [List.cons_append, Linked, ih]
      constructor
      · rintro ⟨begins, served, middle, first, second⟩
        exact ⟨middle, ⟨begins, served, first⟩, second⟩
      · rintro ⟨middle, ⟨begins, served, first⟩, second⟩
        exact ⟨begins, served, middle, first, second⟩

theorem linked_singleton {env : Environment σ Req Ans} {step : Step σ Req Ans}
    {start final : σ} :
    Linked env start [step] final ↔
      step.before = start ∧
        env step.before step.request step.answer step.after ∧
          final = step.after :=
  Iff.rfl

theorem Runs.linked {env : Environment σ Req Ans} {program : Program Req Ans α}
    {start final : σ} {steps : List (Step σ Req Ans)} {result : α}
    (run : Runs env program start steps result final) :
    Linked env start steps final := by
  induction program generalizing start steps with
  | ret value =>
      obtain ⟨rfl, _, rfl⟩ := run
      rfl
  | ask request next ih =>
      obtain ⟨answer, middle, rest, served, rfl, run⟩ := run
      exact ⟨rfl, served, ih answer run⟩

/-- Steps that each leave the state alone leave it alone together. -/
theorem Linked.unchanged {env : Environment σ Req Ans} {start final : σ}
    {steps : List (Step σ Req Ans)} (linked : Linked env start steps final)
    (still : ∀ step ∈ steps, env step.before step.request step.answer step.after →
      step.after = step.before) :
    final = start ∧ ∀ step ∈ steps, step.before = start ∧ step.after = start := by
  induction steps generalizing start with
  | nil => exact ⟨linked, by simp⟩
  | cons step rest ih =>
      obtain ⟨begins, served, linked⟩ := linked
      have ends := (still step (by simp) served).trans begins
      rw [ends] at linked
      obtain ⟨unmoved, others⟩ := ih linked
        fun other member => still other (List.mem_cons_of_mem _ member)
      refine ⟨unmoved, ?_⟩
      rintro other member
      rcases List.mem_cons.mp member with rfl | member
      · exact ⟨begins, ends⟩
      · exact others other member

/-! ## Operations one after the other -/

/-- One completed operation with the steps it took and what it returned. -/
structure Session (Op σ : Type) (Req : Type) (Ans : Req → Type) (α : Type) where
  operation : Op
  steps : List (Step σ Req Ans)
  result : α

/-- The operations run one after the other, each alone and to its end. -/
def RunsEach {Op : Type} (env : Environment σ Req Ans)
    (program : Op → Program Req Ans α) :
    σ → List (Session Op σ Req Ans α) → σ → Prop
  | start, [], final => final = start
  | start, session :: rest, final =>
      ∃ middle,
        Runs env (program session.operation) start session.steps
            session.result middle ∧
          RunsEach env program middle rest final

/-- Run operations against a responder. -/
def evalEach {Op : Type} (responder : Responder σ Req Ans)
    (program : Op → Program Req Ans α) :
    List Op → σ → List (Session Op σ Req Ans α) × σ
  | [], state => ([], state)
  | operation :: rest, state =>
      let (steps, result, middle) := eval responder (program operation) state
      let (sessions, final) := evalEach responder program rest middle
      (⟨operation, steps, result⟩ :: sessions, final)

theorem runsEach_evalEach {Op : Type} {env : Environment σ Req Ans}
    (responder : Responder σ Req Ans)
    (allowed : ∀ state request,
      env state request (responder state request).1
        (responder state request).2)
    (program : Op → Program Req Ans α) (operations : List Op) (start : σ) :
    RunsEach env program start (evalEach responder program operations start).1
      (evalEach responder program operations start).2 := by
  induction operations generalizing start with
  | nil => rfl
  | cons operation rest ih =>
      exact ⟨_, runs_eval responder allowed _ start, ih _⟩

theorem map_operation_evalEach {Op : Type} (responder : Responder σ Req Ans)
    (program : Op → Program Req Ans α) (operations : List Op) (start : σ) :
    (evalEach responder program operations start).1.map (·.operation) = operations := by
  induction operations generalizing start with
  | nil => rfl
  | cons operation rest ih => exact congrArg (operation :: ·) (ih _)

/-- The rule for operations run one after the other: what each of them keeps and
does from a state that satisfies the invariant. -/
theorem RunsEach.each {Op : Type} {env : Environment σ Req Ans}
    {program : Op → Program Req Ans α} (invariant : σ → Prop)
    (admitted does : Session Op σ Req Ans α → Prop)
    (preserved : ∀ session state after, admitted session → invariant state →
      Runs env (program session.operation) state session.steps session.result after →
        invariant after ∧ does session)
    {start final : σ} {sessions : List (Session Op σ Req Ans α)}
    (allAdmitted : ∀ session ∈ sessions, admitted session)
    (holds : invariant start)
    (runs : RunsEach env program start sessions final) :
    invariant final ∧ ∀ session ∈ sessions, does session := by
  induction sessions generalizing start with
  | nil =>
      obtain rfl := runs
      exact ⟨holds, by simp⟩
  | cons session rest ih =>
      obtain ⟨middle, run, runs⟩ := runs
      obtain ⟨kept, done⟩ := preserved session start middle
        (allAdmitted session (by simp)) holds run
      obtain ⟨last, later⟩ := ih
        (fun other member => allAdmitted other (List.mem_cons_of_mem _ member)) kept runs
      refine ⟨last, fun other member => ?_⟩
      rcases List.mem_cons.mp member with rfl | member
      · exact done
      · exact later other member

/-- The rule for invariants of operations run one after the other: each step is
good relative to the steps of its operation, and each operation ends well. -/
theorem RunsEach.invariant {Op : Type} {env : Environment σ Req Ans}
    {program : Op → Program Req Ans α}
    (invariant : σ → Prop) (admitted : Op → Prop)
    (good : Op → List (Step σ Req Ans) → Step σ Req Ans → Prop)
    (post : Op → List (Step σ Req Ans) → α → Prop)
    (preserved : ∀ operation state, admitted operation → invariant state →
      Always env Eq (good operation)
        (fun past result state => invariant state ∧ post operation past result)
        [] state (program operation))
    {start final : σ} {sessions : List (Session Op σ Req Ans α)}
    (allAdmitted : ∀ session ∈ sessions, admitted session.operation)
    (holds : invariant start)
    (runs : RunsEach env program start sessions final) :
    invariant final ∧
      ∀ session ∈ sessions,
        (∀ front step back, session.steps = front ++ step :: back →
          good session.operation front step) ∧
        post session.operation session.steps session.result := by
  refine runs.each invariant (fun session => admitted session.operation)
    (fun session => (∀ front step back, session.steps = front ++ step :: back →
      good session.operation front step) ∧
        post session.operation session.steps session.result)
    (fun session state after allowed holds run => ?_) allAdmitted holds
  have checked := (preserved session.operation state allowed holds).of_runs run
  simp only [List.nil_append] at checked
  exact ⟨checked.2.1, checked.1, checked.2.2⟩

section RunsEach

variable {Op : Type} {env : Environment σ Req Ans}
  {program : Op → Program Req Ans α} {start final : σ}
  {sessions : List (Session Op σ Req Ans α)}

theorem runsEach_append {front back : List (Session Op σ Req Ans α)} :
    RunsEach env program start (front ++ back) final ↔
      ∃ middle, RunsEach env program start front middle ∧
        RunsEach env program middle back final := by
  induction front generalizing start with
  | nil => simp [RunsEach]
  | cons session front ih =>
      simp only [List.cons_append, RunsEach, ih]
      constructor
      · rintro ⟨first, run, middle, earlier, later⟩
        exact ⟨middle, ⟨first, run, earlier⟩, later⟩
      · rintro ⟨middle, ⟨first, run, earlier⟩, later⟩
        exact ⟨first, run, middle, earlier, later⟩

/-- Operations all of whose steps meet a condition. -/
theorem RunsEach.restrict {meets : Step σ Req Ans → Prop}
    (runs : RunsEach env program start sessions final)
    (met : ∀ session ∈ sessions, ∀ step ∈ session.steps, meets step) :
    RunsEach (env.restrict meets) program start sessions final := by
  induction sessions generalizing start with
  | nil => exact runs
  | cons session rest ih =>
      obtain ⟨middle, run, runs⟩ := runs
      exact ⟨middle, run.restrict (met session (by simp)),
        ih runs fun other member => met other (List.mem_cons_of_mem _ member)⟩

/-- The rule for invariants of the history of operations. -/
theorem RunsEach.history_invariant
    (runs : RunsEach env program start sessions final)
    (invariant : List (Step σ Req Ans) → σ → Prop)
    (admitted : Session Op σ Req Ans α → Prop)
    (preserved : ∀ past session state after, admitted session → invariant past state →
      Runs env (program session.operation) state session.steps session.result after →
        invariant (past ++ session.steps) after)
    (allAdmitted : ∀ session ∈ sessions, admitted session)
    {past : List (Step σ Req Ans)} (holds : invariant past start) :
    invariant (past ++ sessions.flatMap (·.steps)) final := by
  induction sessions generalizing past start with
  | nil =>
      obtain rfl := runs
      simpa using holds
  | cons session rest ih =>
      obtain ⟨middle, run, runs⟩ := runs
      rw [List.flatMap_cons, ← List.append_assoc]
      exact ih runs
        (fun other member => allAdmitted other (List.mem_cons_of_mem _ member))
        (preserved past session start middle (allAdmitted session (by simp)) holds run)

end RunsEach

end Program
