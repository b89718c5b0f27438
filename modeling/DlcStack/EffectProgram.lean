import Mathlib.Data.List.Basic
import Mathlib.Tactic.Common

/-!
# Programs that ask an environment

A program is a finite tree of requests: at each node it asks its environment
something and continues with the answer.  The environment owns a state, and may
be nondeterministic.  This file gives such programs their monad, their runs
with the steps taken, an executable interpretation for environments that
answer by a function, and one verification condition, `Always`, from which
every property of the steps and of the result of a run is derived.

`Always` takes a relation along which other parties may move the state between
two steps of the program; it is equality for a program that runs alone.
-/

/-- A program over the requests `Req` answered in `Ans`: it has finished with a
value, or it makes a request and continues with the answer. -/
inductive Program (Req : Type) (Ans : Req → Type) (α : Type) where
  | ret (value : α)
  | ask (request : Req) (next : Ans request → Program Req Ans α)

namespace Program

variable {Req : Type} {Ans : Req → Type} {α β σ : Type}

/-- Run the second program on the value of the first. -/
def bind : Program Req Ans α → (α → Program Req Ans β) → Program Req Ans β
  | ret value, rest => rest value
  | ask request next, rest => ask request fun answer => (next answer).bind rest

instance : Monad (Program Req Ans) where
  pure := ret
  bind := bind

/-- The program that makes one request and returns the answer. -/
def perform (request : Req) : Program Req Ans (Ans request) :=
  ask request ret

@[simp]
theorem ret_bind (value : α) (rest : α → Program Req Ans β) :
    ret value >>= rest = rest value :=
  rfl

@[simp]
theorem ask_bind (request : Req) (next : Ans request → Program Req Ans α)
    (rest : α → Program Req Ans β) :
    ask request next >>= rest =
      ask request fun answer => next answer >>= rest :=
  rfl

instance : LawfulMonad (Program Req Ans) :=
  LawfulMonad.mk' _
    (fun program => by
      induction program with
      | ret value => rfl
      | ask request next ih => exact congrArg (ask request) (funext ih))
    (fun _ _ => rfl)
    (fun program first second => by
      induction program with
      | ret value => rfl
      | ask request next ih =>
          exact congrArg (ask request) (funext ih))

@[simp]
theorem perform_bind (request : Req)
    (rest : Ans request → Program Req Ans β) :
    perform request >>= rest = ask request rest :=
  rfl

/-- The program with its requests made as requests of another kind. -/
def relabel {Req' : Type} {Ans' : Req' → Type} (inject : Req → Req')
    (reply : ∀ request, Ans' (inject request) → Ans request) :
    Program Req Ans α → Program Req' Ans' α
  | ret value => ret value
  | ask request next =>
      ask (inject request) fun answer => (next (reply request answer)).relabel inject reply

/-- The program with each of its requests carried out by a program over others. -/
def expand {Req' : Type} {Ans' : Req' → Type}
    (carryOut : (request : Req) → Program Req' Ans' (Ans request)) :
    Program Req Ans α → Program Req' Ans' α
  | ret value => ret value
  | ask request next =>
      (carryOut request).bind fun answer => (next answer).expand carryOut

/-- One request with its answer and the environment states around it. -/
structure Step (σ : Type) (Req : Type) (Ans : Req → Type) where
  before : σ
  request : Req
  answer : Ans request
  after : σ

/-- An environment: which answer and next state it may give to a request. -/
abbrev Environment (σ : Type) (Req : Type) (Ans : Req → Type) :=
  σ → (request : Req) → Ans request → σ → Prop

/-! ## Runs -/

/-- The program alone, started in `start`, takes exactly `steps` and returns
`result` in `final`. -/
def Runs (env : Environment σ Req Ans) :
    Program Req Ans α → σ → List (Step σ Req Ans) → α → σ → Prop
  | ret value, start, steps, result, final =>
      steps = [] ∧ result = value ∧ final = start
  | ask request next, start, steps, result, final =>
      ∃ answer middle rest,
        env start request answer middle ∧
          steps = ⟨start, request, answer, middle⟩ :: rest ∧
          Runs env (next answer) middle rest result final

theorem runs_bind {env : Environment σ Req Ans}
    (program : Program Req Ans α) (rest : α → Program Req Ans β)
    {start final : σ} {steps : List (Step σ Req Ans)} {result : β} :
    Runs env (program >>= rest) start steps result final ↔
      ∃ value middle front back,
        Runs env program start front value middle ∧
          Runs env (rest value) middle back result final ∧
          steps = front ++ back := by
  induction program generalizing start steps with
  | ret value =>
      simp only [ret_bind, Runs]
      constructor
      · intro run
        exact ⟨value, start, [], steps, ⟨rfl, rfl, rfl⟩, run, rfl⟩
      · rintro ⟨value, middle, front, back, ⟨rfl, rfl, rfl⟩, run, rfl⟩
        exact run
  | ask request next ih =>
      simp only [ask_bind, Runs]
      constructor
      · rintro ⟨answer, middle, tail, served, rfl, run⟩
        obtain ⟨value, later, front, back, first, second, rfl⟩ :=
          (ih answer).mp run
        exact ⟨value, later, _, back,
          ⟨answer, middle, front, served, rfl, first⟩, second, rfl⟩
      · rintro ⟨value, later, front, back,
          ⟨answer, middle, tail, served, rfl, first⟩, second, rfl⟩
        exact ⟨answer, middle, tail ++ back, served, rfl,
          (ih answer).mpr ⟨value, later, tail, back, first, second, rfl⟩⟩

/-- A run over the elements of a list runs the first one, then the others. -/
theorem runs_mapM_cons {γ : Type} {env : Environment σ Req Ans}
    (program : γ → Program Req Ans α) (element : γ) (rest : List γ)
    {start final : σ} {steps : List (Step σ Req Ans)} {results : List α} :
    Runs env ((element :: rest).mapM program) start steps results final ↔
      ∃ value values middle front back,
        Runs env (program element) start front value middle ∧
          Runs env (rest.mapM program) middle back values final ∧
          results = value :: values ∧ steps = front ++ back := by
  rw [List.mapM_cons, runs_bind]
  constructor
  · rintro ⟨value, middle, front, back, first, run, rfl⟩
    obtain ⟨values, later, back, none, others, ⟨rfl, rfl, rfl⟩, rfl⟩ :=
      (runs_bind (List.mapM program rest) _).mp run
    exact ⟨value, values, middle, front, back, first, others, rfl,
      by rw [List.append_nil]⟩
  · rintro ⟨value, values, middle, front, back, first, others, rfl, rfl⟩
    refine ⟨value, middle, front, back, first, ?_, rfl⟩
    exact (runs_bind (List.mapM program rest) _).mpr
      ⟨values, final, back, [], others, ⟨rfl, rfl, rfl⟩, by rw [List.append_nil]⟩

/-- A run in which a request is carried out first. -/
theorem runs_expand_ask {Req' : Type} {Ans' : Req' → Type}
    {env : Environment σ Req' Ans'}
    (carryOut : (request : Req) → Program Req' Ans' (Ans request))
    (request : Req) (next : Ans request → Program Req Ans α)
    {start final : σ} {steps : List (Step σ Req' Ans')} {result : α} :
    Runs env ((ask request next).expand carryOut) start steps result final ↔
      ∃ answer middle front back,
        Runs env (carryOut request) start front answer middle ∧
          Runs env ((next answer).expand carryOut) middle back result final ∧
          steps = front ++ back :=
  runs_bind (carryOut request) fun answer => (next answer).expand carryOut

/-- An environment that answers by a function of its state. -/
abbrev Responder (σ : Type) (Req : Type) (Ans : Req → Type) :=
  σ → (request : Req) → Ans request × σ

/-- The environment of a responder. -/
def Responder.env (responder : Responder σ Req Ans) : Environment σ Req Ans :=
  fun before request answer after =>
    responder before request = (answer, after)

/-- Run a program against a responder: its steps, its value and the final
state. -/
def eval (responder : Responder σ Req Ans) :
    Program Req Ans α → σ → List (Step σ Req Ans) × α × σ
  | ret value, state => ([], value, state)
  | ask request next, state =>
      let (answer, after) := responder state request
      let (steps, value, final) := eval responder (next answer) after
      (⟨state, request, answer, after⟩ :: steps, value, final)

/-- A run against a responder is a run of every environment that allows the
responder's answers. -/
theorem runs_eval {env : Environment σ Req Ans}
    (responder : Responder σ Req Ans)
    (allowed : ∀ state request,
      env state request (responder state request).1
        (responder state request).2)
    (program : Program Req Ans α) (start : σ) :
    Runs env program start (eval responder program start).1
      (eval responder program start).2.1
      (eval responder program start).2.2 := by
  induction program generalizing start with
  | ret value => exact ⟨rfl, rfl, rfl⟩
  | ask request next ih =>
      exact ⟨_, _, _, allowed start request, rfl, ih _ _⟩

theorem runs_responder_iff (responder : Responder σ Req Ans)
    (program : Program Req Ans α) {start final : σ}
    {steps : List (Step σ Req Ans)} {result : α} :
    Runs responder.env program start steps result final ↔
      eval responder program start = (steps, result, final) := by
  induction program generalizing start steps with
  | ret value =>
      simp only [Runs, eval, Prod.mk.injEq]
      constructor
      · rintro ⟨rfl, rfl, rfl⟩
        exact ⟨rfl, rfl, rfl⟩
      · rintro ⟨rfl, rfl, rfl⟩
        exact ⟨rfl, rfl, rfl⟩
  | ask request next ih =>
      constructor
      · rintro ⟨answer, middle, rest, served, rfl, run⟩
        have tail := (ih answer).mp run
        have served : responder start request = (answer, middle) := served
        simp only [eval, served, tail]
      · intro evaluated
        simp only [eval, Prod.mk.injEq] at evaluated
        obtain ⟨rfl, rfl, rfl⟩ := evaluated
        exact ⟨_, _, _, rfl, rfl, (ih _).mpr rfl⟩

@[simp]
theorem eval_ret (responder : Responder σ Req Ans) (value : α) (state : σ) :
    eval responder (ret value) state = ([], value, state) :=
  rfl

@[simp]
theorem eval_pure (responder : Responder σ Req Ans) (value : α) (state : σ) :
    eval responder (pure value) state = ([], value, state) :=
  rfl

/-- The value and final state after a request. -/
theorem eval_ask_snd (responder : Responder σ Req Ans) (request : Req)
    (next : Ans request → Program Req Ans α) (state : σ) :
    (eval responder (ask request next) state).2 =
      (eval responder (next (responder state request).1)
        (responder state request).2).2 :=
  rfl

/-- The value and final state of a sequence. -/
theorem eval_bind_snd (responder : Responder σ Req Ans)
    (program : Program Req Ans α) (rest : α → Program Req Ans β) (state : σ) :
    (eval responder (program >>= rest) state).2 =
      (eval responder (rest (eval responder program state).2.1)
        (eval responder program state).2.2).2 := by
  induction program generalizing state with
  | ret value => rfl
  | ask request next ih => exact ih _ _

/-! ## The verification condition -/

/-- Whatever the environment answers, and wherever other parties move the state
along `rely` before each request, every step of the program satisfies `good`
relative to the steps `past` before it, and `post` holds on return. -/
def Always (env : Environment σ Req Ans) (rely : σ → σ → Prop)
    (good : List (Step σ Req Ans) → Step σ Req Ans → Prop)
    (post : List (Step σ Req Ans) → α → σ → Prop) :
    List (Step σ Req Ans) → σ → Program Req Ans α → Prop
  | past, state, ret value => post past value state
  | past, state, ask request next =>
      ∀ before, rely state before → ∀ answer after,
        env before request answer after →
          good past ⟨before, request, answer, after⟩ ∧
            Always env rely good post
              (past ++ [⟨before, request, answer, after⟩]) after (next answer)

section Always

variable {env : Environment σ Req Ans} {rely : σ → σ → Prop}
  {good good' : List (Step σ Req Ans) → Step σ Req Ans → Prop}
  {post post' : List (Step σ Req Ans) → α → σ → Prop}
  {past : List (Step σ Req Ans)} {state : σ}

theorem always_ret (value : α) :
    Always env rely good post past state (ret value) ↔ post past value state :=
  Iff.rfl

theorem always_pure (value : α) :
    Always env rely good post past state (pure value) ↔
      post past value state :=
  Iff.rfl

theorem always_ask (request : Req)
    (next : Ans request → Program Req Ans α) :
    Always env rely good post past state (ask request next) ↔
      ∀ before, rely state before → ∀ answer after,
        env before request answer after →
          good past ⟨before, request, answer, after⟩ ∧
            Always env rely good post
              (past ++ [⟨before, request, answer, after⟩]) after
              (next answer) :=
  Iff.rfl

/-- Between the steps of a program that runs alone the state does not move. -/
theorem always_ask_alone (request : Req)
    (next : Ans request → Program Req Ans α) :
    Always env Eq good post past state (ask request next) ↔
      ∀ answer after, env state request answer after →
        good past ⟨state, request, answer, after⟩ ∧
          Always env Eq good post
            (past ++ [⟨state, request, answer, after⟩]) after
            (next answer) := by
  constructor
  · intro always answer after served
    exact always state rfl answer after served
  · rintro always before rfl answer after served
    exact always answer after served

/-- The rule of a request in front of a program. -/
theorem always_perform (request : Req)
    (rest : Ans request → Program Req Ans α) :
    Always env rely good post past state (perform request >>= rest) ↔
      ∀ before, rely state before → ∀ answer after,
        env before request answer after →
          good past ⟨before, request, answer, after⟩ ∧
            Always env rely good post
              (past ++ [⟨before, request, answer, after⟩]) after
              (rest answer) :=
  Iff.rfl

/-- The rule of a request in front of a program that runs alone. -/
theorem always_perform_alone (request : Req)
    (rest : Ans request → Program Req Ans α) :
    Always env Eq good post past state (perform request >>= rest) ↔
      ∀ answer after, env state request answer after →
        good past ⟨state, request, answer, after⟩ ∧
          Always env Eq good post
            (past ++ [⟨state, request, answer, after⟩]) after
            (rest answer) :=
  always_ask_alone request rest

/-- The rule of sequencing. -/
theorem always_bind (program : Program Req Ans α)
    (rest : α → Program Req Ans β)
    {post : List (Step σ Req Ans) → β → σ → Prop} :
    Always env rely good post past state (program >>= rest) ↔
      Always env rely good
        (fun past value state => Always env rely good post past state (rest value))
        past state program := by
  induction program generalizing past state with
  | ret value => exact Iff.rfl
  | ask request next ih =>
      simp only [ask_bind, always_ask, ih]

/-- The rule of consequence. -/
theorem Always.mono {program : Program Req Ans α}
    (always : Always env rely good post past state program)
    (goodMono : ∀ past step, good past step → good' past step)
    (postMono : ∀ past value state, post past value state →
      post' past value state) :
    Always env rely good' post' past state program := by
  induction program generalizing past state with
  | ret value => exact postMono _ _ _ always
  | ask request next ih =>
      intro before moved answer after served
      obtain ⟨goodStep, later⟩ := always before moved answer after served
      exact ⟨goodMono _ _ goodStep, ih answer later⟩

theorem Always.post_mono {program : Program Req Ans α}
    (always : Always env rely good post past state program)
    (postMono : ∀ past value state, post past value state →
      post' past value state) :
    Always env rely good post' past state program :=
  always.mono (fun _ _ => id) postMono

/-- The steps taken before a program stay in front of its own. -/
theorem Always.post_append {program : Program Req Ans α}
    (always : Always env rely good post past state program) :
    Always env rely good
      (fun past' value state =>
        (∃ later, past' = past ++ later) ∧ post past' value state)
      past state program := by
  induction program generalizing past state with
  | ret value => exact ⟨⟨[], by simp⟩, always⟩
  | ask request next ih =>
      intro before moved answer after served
      obtain ⟨goodStep, later⟩ := always before moved answer after served
      refine ⟨goodStep, (ih answer later).post_mono ?_⟩
      rintro _ _ _ ⟨⟨tail, rfl⟩, holds⟩
      exact ⟨⟨_, by rw [List.append_assoc]⟩, holds⟩

theorem Always.and {program : Program Req Ans α}
    (first : Always env rely good post past state program)
    (second : Always env rely good' post' past state program) :
    Always env rely (fun past step => good past step ∧ good' past step)
      (fun past value state => post past value state ∧ post' past value state)
      past state program := by
  induction program generalizing past state with
  | ret value => exact ⟨first, second⟩
  | ask request next ih =>
      intro before moved answer after served
      obtain ⟨good, later⟩ := first before moved answer after served
      obtain ⟨good', later'⟩ := second before moved answer after served
      exact ⟨⟨good, good'⟩, ih answer later later'⟩

/-- Conditions that hold of everything hold of every run. -/
theorem always_of_forall (goodAll : ∀ past step, good past step)
    (postAll : ∀ past value state, post past value state)
    (program : Program Req Ans α) :
    Always env rely good post past state program := by
  induction program generalizing past state with
  | ret value => exact postAll _ _ _
  | ask request next ih =>
      exact fun _ _ answer _ _ => ⟨goodAll _ _, ih answer⟩

/-- The verification condition holds of every run. -/
theorem Always.of_runs {program : Program Req Ans α}
    (always : Always env Eq good post past state program)
    {steps : List (Step σ Req Ans)} {result : α} {final : σ}
    (run : Runs env program state steps result final) :
    (∀ front step back, steps = front ++ step :: back →
        good (past ++ front) step) ∧
      post (past ++ steps) result final := by
  induction program generalizing past state steps with
  | ret value =>
      obtain ⟨rfl, rfl, rfl⟩ := run
      refine ⟨?_, by simpa using (always_ret _).mp always⟩
      intro front step back split
      simp at split
  | ask request next ih =>
      obtain ⟨answer, middle, rest, served, rfl, run⟩ := run
      obtain ⟨goodStep, later⟩ := always state rfl answer middle served
      obtain ⟨goodRest, postRest⟩ := ih answer later run
      refine ⟨?_, by simpa using postRest⟩
      intro front step back split
      cases front with
      | nil =>
          obtain ⟨rfl, rfl⟩ := List.cons.inj split
          simpa using goodStep
      | cons head front =>
          rw [List.cons_append] at split
          obtain ⟨rfl, restEq⟩ := List.cons.inj split
          simpa using goodRest front step back restEq

/-- What holds at the end of every run of a program that runs alone. -/
theorem always_of_runs {program : Program Req Ans α}
    (ends : ∀ steps result final, Runs env program state steps result final →
      post (past ++ steps) result final) :
    Always env Eq (fun _ _ => True) post past state program := by
  induction program generalizing past state with
  | ret value =>
      have ended := ends [] value state ⟨rfl, rfl, rfl⟩
      rw [List.append_nil] at ended
      exact ended
  | ask request next ih =>
      rintro before rfl answer after served
      refine ⟨trivial, ih answer fun steps result final run => ?_⟩
      simpa using ends _ result final ⟨answer, after, steps, served, rfl, run⟩

/-- Where other parties move the state less, more holds. -/
theorem Always.rely_mono {rely' : σ → σ → Prop} {program : Program Req Ans α}
    (always : Always env rely good post past state program)
    (less : ∀ first second, rely' first second → rely first second) :
    Always env rely' good post past state program := by
  induction program generalizing past state with
  | ret value => exact always
  | ask request next ih =>
      intro before moved answer after served
      obtain ⟨goodStep, later⟩ := always before (less _ _ moved) answer after served
      exact ⟨goodStep, ih answer later⟩

/-- Conditions on a program's own steps hold after any steps before it. -/
theorem Always.prepend {program : Program Req Ans α}
    (always : Always env rely good post past state program)
    (earlier : List (Step σ Req Ans)) :
    Always env rely
      (fun past step => ∃ own, past = earlier ++ own ∧ good own step)
      (fun past value state => ∃ own, past = earlier ++ own ∧ post own value state)
      (earlier ++ past) state program := by
  induction program generalizing past state with
  | ret value => exact ⟨past, rfl, always⟩
  | ask request next ih =>
      intro before moved answer after served
      obtain ⟨goodStep, later⟩ := always before moved answer after served
      refine ⟨⟨past, rfl, goodStep⟩, ?_⟩
      rw [List.append_assoc]
      exact ih answer later

/-- The rule of a program repeated for each element of a list, at its first element. -/
theorem always_mapM_cons {γ δ : Type} (program : γ → Program Req Ans δ) (element : γ)
    (rest : List γ) {post : List (Step σ Req Ans) → List δ → σ → Prop} :
    Always env rely good post past state ((element :: rest).mapM program) ↔
      Always env rely good
        (fun past value state =>
          Always env rely good (fun past values state => post past (value :: values) state)
            past state (rest.mapM program))
        past state (program element) := by
  rw [List.mapM_cons, always_bind]
  simp only [always_bind, always_pure]

/-- The rule of a program repeated for each element of a list: what holds of
each value when it is returned, and of all later steps, holds of all values. -/
theorem always_mapM {γ δ : Type} {program : γ → Program Req Ans δ}
    (invariant : List (Step σ Req Ans) → σ → Prop)
    (relates : List (Step σ Req Ans) → γ → δ → Prop)
    (persists : ∀ past later element value, relates past element value →
      relates (past ++ later) element value)
    (elements : List γ) (holds : invariant past state)
    (each : ∀ element ∈ elements, ∀ past state, invariant past state →
      Always env rely good
        (fun past value state => invariant past state ∧ relates past element value)
        past state (program element)) :
    Always env rely good
      (fun past values state =>
        invariant past state ∧ List.Forall₂ (relates past) elements values)
      past state (elements.mapM program) := by
  induction elements generalizing past state with
  | nil => exact ⟨holds, .nil⟩
  | cons element rest ih =>
      rw [always_mapM_cons]
      refine (each element (by simp) past state holds).post_mono ?_
      rintro middle value here ⟨kept, related⟩
      refine (ih kept fun other member =>
        each other (List.mem_cons_of_mem _ member)).post_append.post_mono ?_
      rintro _ values final ⟨⟨later, rfl⟩, kept, others⟩
      exact ⟨kept, .cons (persists _ _ _ _ related) others⟩

end Always

/-! ## Programs that may fail -/

/-- The rule of sequencing for programs that return early with an error. -/
theorem always_run_bind {ε : Type} {env : Environment σ Req Ans}
    {rely : σ → σ → Prop}
    {good : List (Step σ Req Ans) → Step σ Req Ans → Prop}
    {post : List (Step σ Req Ans) → Except ε β → σ → Prop}
    {past : List (Step σ Req Ans)} {state : σ}
    (program : ExceptT ε (Program Req Ans) α)
    (rest : α → ExceptT ε (Program Req Ans) β) :
    Always env rely good post past state (program >>= rest).run ↔
      Always env rely good
        (fun past result state =>
          match result with
          | .ok value => Always env rely good post past state (rest value).run
          | .error error => post past (.error error) state)
        past state program.run := by
  rw [ExceptT.run_bind, always_bind]
  constructor <;>
    · intro always
      refine always.post_mono fun past result state holds => ?_
      cases result <;> exact holds

/-- The rule of sequencing for a condition on the steps alone. -/
theorem always_run_seq {ε : Type} {env : Environment σ Req Ans} {rely : σ → σ → Prop}
    {good : List (Step σ Req Ans) → Step σ Req Ans → Prop}
    {past : List (Step σ Req Ans)} {state : σ}
    {program : ExceptT ε (Program Req Ans) α} {rest : α → ExceptT ε (Program Req Ans) β}
    (first : Always env rely good (fun _ _ _ => True) past state program.run)
    (second : ∀ value past state,
      Always env rely good (fun _ _ _ => True) past state (rest value).run) :
    Always env rely good (fun _ _ _ => True) past state (program >>= rest).run := by
  refine (always_run_bind _ _).mpr (first.post_mono fun past result state _ => ?_)
  cases result with
  | ok value => exact second value past state
  | error error => trivial

/-- The rule of a program whose failure is a value. -/
theorem always_run_lift_bind {ε : Type} {env : Environment σ Req Ans}
    {rely : σ → σ → Prop}
    {good : List (Step σ Req Ans) → Step σ Req Ans → Prop}
    {post : List (Step σ Req Ans) → Except ε β → σ → Prop}
    {past : List (Step σ Req Ans)} {state : σ}
    (program : Program Req Ans α)
    (rest : α → ExceptT ε (Program Req Ans) β) :
    Always env rely good post past state (ExceptT.lift program >>= rest).run ↔
      Always env rely good
        (fun past value state =>
          Always env rely good post past state (rest value).run)
        past state program := by
  rw [ExceptT.run_bind_lift, always_bind]

/-- The rule of a program whose error is converted. -/
theorem always_adapt {ε ε' : Type} {env : Environment σ Req Ans}
    {rely : σ → σ → Prop}
    {good : List (Step σ Req Ans) → Step σ Req Ans → Prop}
    {post : List (Step σ Req Ans) → Except ε' α → σ → Prop}
    {past : List (Step σ Req Ans)} {state : σ} (convert : ε → ε')
    (program : ExceptT ε (Program Req Ans) α) :
    Always env rely good post past state (ExceptT.adapt convert program).run ↔
      Always env rely good
        (fun past result state => post past (result.mapError convert) state)
        past state program.run :=
  always_bind program.run fun result => ret (result.mapError convert)

/-- A program goes on after a part that returns. -/
theorem eval_run_bind {ε : Type} {responder : Responder σ Req Ans}
    {program : ExceptT ε (Program Req Ans) α}
    (rest : α → ExceptT ε (Program Req Ans) β) {state after : σ} {value : α}
    (returned : (eval responder program.run state).2 = (.ok value, after)) :
    (eval responder (program >>= rest).run state).2 =
      (eval responder (rest value).run after).2 := by
  rw [ExceptT.run_bind, eval_bind_snd, returned]

/-- The value and final state of a program whose error is converted. -/
theorem eval_adapt_snd {ε ε' : Type} (responder : Responder σ Req Ans)
    (convert : ε → ε') (program : ExceptT ε (Program Req Ans) α) (state : σ) :
    (eval responder (ExceptT.adapt convert program).run state).2 =
      ((eval responder program.run state).2.1.mapError convert,
        (eval responder program.run state).2.2) :=
  eval_bind_snd responder program.run (fun result => ret (result.mapError convert)) state

end Program
