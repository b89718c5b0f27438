import DlcStack.EffectProgram

/-!
# A program and the part of the state it is about

`Asks` bounds the requests that a program can make.  Where two responders give
the same answers to these requests and keep their states related, a program
returns the same value in both and leaves related states; a large state can so
be replaced by the part that a program is about.
-/

namespace Program

variable {Req : Type} {Ans : Req → Type} {α β σ τ : Type}

/-- Whatever it is answered, the program makes allowed requests only. -/
def Asks (allowed : Req → Prop) : Program Req Ans α → Prop
  | ret _ => True
  | ask request next => allowed request ∧ ∀ answer, Asks allowed (next answer)

section Asks

variable {allowed allowed' : Req → Prop}

theorem asks_pure (value : α) : Asks allowed (pure value : Program Req Ans α) :=
  trivial

theorem asks_perform {request : Req} (may : allowed request) :
    Asks allowed (perform request : Program Req Ans (Ans request)) :=
  ⟨may, fun _ => trivial⟩

theorem asks_bind {program : Program Req Ans α} {rest : α → Program Req Ans β}
    (first : Asks allowed program) (second : ∀ value, Asks allowed (rest value)) :
    Asks allowed (program >>= rest) := by
  induction program with
  | ret value => exact second value
  | ask request next ih => exact ⟨first.1, fun answer => ih answer (first.2 answer)⟩

theorem asks_run_bind {ε : Type} {program : ExceptT ε (Program Req Ans) α}
    {rest : α → ExceptT ε (Program Req Ans) β} (first : Asks allowed program.run)
    (second : ∀ value, Asks allowed (rest value).run) :
    Asks allowed (program >>= rest).run := by
  refine asks_bind first fun result => ?_
  cases result with
  | ok value => exact second value
  | error error => trivial

theorem asks_lift {ε : Type} {program : Program Req Ans α} (asks : Asks allowed program) :
    Asks allowed (ExceptT.lift program : ExceptT ε (Program Req Ans) α).run :=
  asks_bind asks fun _ => trivial

theorem asks_run_lift_bind {ε : Type} {program : Program Req Ans α}
    {rest : α → ExceptT ε (Program Req Ans) β} (first : Asks allowed program)
    (second : ∀ value, Asks allowed (rest value).run) :
    Asks allowed (ExceptT.lift program >>= rest).run := by
  rw [ExceptT.run_bind_lift]
  exact asks_bind first second

theorem asks_adapt {ε ε' : Type} {convert : ε → ε'}
    {program : ExceptT ε (Program Req Ans) α} (asks : Asks allowed program.run) :
    Asks allowed (ExceptT.adapt convert program).run :=
  asks_bind asks fun _ => trivial

theorem asks_mapM {γ : Type} {program : γ → Program Req Ans α} (elements : List γ)
    (each : ∀ element, Asks allowed (program element)) :
    Asks allowed (elements.mapM program) := by
  induction elements with
  | nil => exact asks_pure _
  | cons element rest ih =>
      rw [List.mapM_cons]
      exact asks_bind (each element) fun _ => asks_bind ih fun _ => asks_pure _

theorem asks_run_mapM {γ ε : Type} {program : γ → ExceptT ε (Program Req Ans) α}
    (elements : List γ) (each : ∀ element, Asks allowed (program element).run) :
    Asks allowed (elements.mapM program).run := by
  induction elements with
  | nil => exact asks_pure _
  | cons element rest ih =>
      rw [List.mapM_cons]
      exact asks_run_bind (each element) fun _ => asks_run_bind ih fun _ => asks_pure _

/-- Requests of one kind, made as requests of another. -/
theorem asks_relabel {Req' : Type} {Ans' : Req' → Type} {allowed : Req' → Prop}
    {inject : Req → Req'} {reply : ∀ request, Ans' (inject request) → Ans request}
    (may : ∀ request, allowed (inject request)) (program : Program Req Ans α) :
    Asks allowed (program.relabel inject reply) := by
  induction program with
  | ret value => trivial
  | ask request next ih => exact ⟨may request, fun answer => ih (reply request answer)⟩

/-- The rule of what allowed requests keep of the steps before them. -/
theorem Asks.always_past {env : Environment σ Req Ans} {rely : σ → σ → Prop}
    {good : List (Step σ Req Ans) → Step σ Req Ans → Prop} {program : Program Req Ans α}
    (asks : Asks allowed program) (invariant : List (Step σ Req Ans) → Prop)
    (kept : ∀ past step, allowed step.request → invariant past →
      good past step ∧ invariant (past ++ [step]))
    {past : List (Step σ Req Ans)} {state : σ} (initially : invariant past) :
    Always env rely good (fun past _ _ => invariant past) past state program := by
  induction program generalizing past state with
  | ret value => exact initially
  | ask request next ih =>
      intro before _ answer after _
      obtain ⟨goodStep, later⟩ :=
        kept past ⟨before, request, answer, after⟩ asks.1 initially
      exact ⟨goodStep, ih answer (asks.2 answer) later⟩

/-- Every request of a run is allowed. -/
theorem Asks.of_runs {env : Environment σ Req Ans} {program : Program Req Ans α}
    (asks : Asks allowed program) {start final : σ} {steps : List (Step σ Req Ans)}
    {result : α} (run : Runs env program start steps result final) :
    ∀ step ∈ steps, allowed step.request := by
  induction program generalizing start steps with
  | ret value =>
      obtain ⟨rfl, -, -⟩ := run
      simp
  | ask request next ih =>
      obtain ⟨answer, middle, rest, -, rfl, run⟩ := run
      intro step member
      rcases List.mem_cons.mp member with rfl | member
      · exact asks.1
      · exact ih answer (asks.2 answer) run step member

theorem Asks.mono {program : Program Req Ans α} (asks : Asks allowed program)
    (more : ∀ request, allowed request → allowed' request) : Asks allowed' program := by
  induction program with
  | ret value => trivial
  | ask request next ih =>
      exact ⟨more request asks.1, fun answer => ih answer (asks.2 answer)⟩

/-- What holds in an environment holds in one that allows no more of these requests. -/
theorem Asks.always_env {env env' : Environment σ Req Ans} {rely : σ → σ → Prop}
    {good : List (Step σ Req Ans) → Step σ Req Ans → Prop}
    {post : List (Step σ Req Ans) → α → σ → Prop} {program : Program Req Ans α}
    {past : List (Step σ Req Ans)} {state : σ} (asks : Asks allowed program)
    (always : Always env rely good post past state program)
    (less : ∀ before request answer after, allowed request →
      env' before request answer after → env before request answer after) :
    Always env' rely good post past state program := by
  induction program generalizing past state with
  | ret value => exact always
  | ask request next ih =>
      intro before moved answer after served
      obtain ⟨goodStep, later⟩ := always before moved answer after (less _ _ _ _ asks.1 served)
      exact ⟨goodStep, ih answer (asks.2 answer) later⟩

end Asks

/-- On allowed requests both responders give the same answer and keep their
states related. -/
def Simulates (allowed : Req → Prop) (relates : σ → τ → Prop)
    (concrete : Responder σ Req Ans) (abstract : Responder τ Req Ans) : Prop :=
  ∀ state part request, allowed request → relates state part →
    (concrete state request).1 = (abstract part request).1 ∧
      relates (concrete state request).2 (abstract part request).2

/-- The rule of simulation. -/
theorem Simulates.eval {allowed : Req → Prop} {relates : σ → τ → Prop}
    {concrete : Responder σ Req Ans} {abstract : Responder τ Req Ans}
    (simulates : Simulates allowed relates concrete abstract)
    {program : Program Req Ans α} (asks : Asks allowed program) {state : σ} {part : τ}
    (related : relates state part) :
    (eval concrete program state).2.1 = (eval abstract program part).2.1 ∧
      relates (eval concrete program state).2.2 (eval abstract program part).2.2 := by
  induction program generalizing state part with
  | ret value => exact ⟨rfl, related⟩
  | ask request next ih =>
      obtain ⟨same, after⟩ := simulates state part request asks.1 related
      rw [eval_ask_snd, eval_ask_snd, same]
      exact ih _ (asks.2 _) after

/-- What always holds at the end holds of an evaluation. -/
theorem Always.of_eval {responder : Responder σ Req Ans}
    {good : List (Step σ Req Ans) → Step σ Req Ans → Prop}
    {post : List (Step σ Req Ans) → α → σ → Prop} {program : Program Req Ans α}
    {state : σ} (always : Always responder.env Eq good post [] state program) :
    post (eval responder program state).1 (eval responder program state).2.1
      (eval responder program state).2.2 :=
  (always.of_runs ((runs_responder_iff responder program).mpr rfl)).2

/-- What allowed requests preserve holds at the end of a program. -/
theorem Asks.always {allowed : Req → Prop} {env : Environment σ Req Ans}
    {holds : σ → Prop} {program : Program Req Ans α} (asks : Asks allowed program)
    (preserved : ∀ before request answer after, allowed request → holds before →
      env before request answer after → holds after)
    {past : List (Step σ Req Ans)} {state : σ} (initially : holds state) :
    Always env Eq (fun _ _ => True) (fun _ _ final => holds final) past state
      program := by
  induction program generalizing past state with
  | ret value => exact initially
  | ask request next ih =>
      rintro before rfl answer after served
      exact ⟨trivial, ih answer (asks.2 answer)
        (preserved state request answer after asks.1 initially served)⟩

/-- What allowed requests preserve, a program preserves. -/
theorem Asks.eval_invariant {allowed : Req → Prop} {holds : σ → Prop}
    {responder : Responder σ Req Ans} {program : Program Req Ans α}
    (asks : Asks allowed program)
    (preserved : ∀ state request, allowed request → holds state →
      holds (responder state request).2) {state : σ} (initially : holds state) :
    holds (eval responder program state).2.2 := by
  refine (asks.always ?_ initially : Always responder.env Eq _ _ [] state program).of_eval
  intro before request answer after may held served
  have same : responder before request = (answer, after) := served
  have kept := preserved before request may held
  rw [same] at kept
  exact kept

end Program
