import DlcStack.EffectInterleaving

/-!
# Parties with states of their own

Each of several parties has its own state and its own environment.  A request of
one party leaves the states of the others alone, so whatever is proved of a
program against the environment of its party, with the state free to move, holds
of every step that the program takes among the programs of all parties.
-/

namespace Program

variable {Party σ : Type} {Req : Type} {Ans : Req → Type} {α β ι : Type}

/-- A step of one of the parties, with the states of all of them. -/
abbrev PartyStep (Party σ : Type) (Req : Type) (Ans : Req → Type) :=
  Step (Party → σ) (Party × Req) fun request => Ans request.2

/-- What the party that takes a step sees of it. -/
def Step.own (step : PartyStep Party σ Req Ans) : Step σ Req Ans :=
  ⟨step.before step.request.1, step.request.2, step.answer, step.after step.request.1⟩

/-- Each party is answered by its own environment. -/
def apart (env : Party → Environment σ Req Ans) :
    Environment (Party → σ) (Party × Req) fun request => Ans request.2 :=
  fun before request answer after =>
    env request.1 (before request.1) request.2 answer (after request.1) ∧
      ∀ other, other ≠ request.1 → after other = before other

/-- The program with its requests made by a party. -/
def ofParty (party : Party) (program : Program Req Ans α) :
    Program (Party × Req) (fun request => Ans request.2) α :=
  program.relabel (Prod.mk party) fun _ => id

/-- Every condition on the steps of a party's program holds of them among all
parties. -/
theorem Always.ofParty {env : Party → Environment σ Req Ans} {party : Party}
    {good : List (Step σ Req Ans) → Step σ Req Ans → Prop}
    {post : List (Step σ Req Ans) → α → Prop} {program : Program Req Ans α}
    {past : List (PartyStep Party σ Req Ans)} {state : σ} {states : Party → σ}
    (always : Always (env party) (fun _ _ => True) good
      (fun past value _ => post past value) (past.map Step.own) state program) :
    Always (apart env) (fun _ _ => True)
      (fun past step => step.request.1 = party ∧ good (past.map Step.own) step.own)
      (fun past value _ => post (past.map Step.own) value) past states
      (program.ofParty party) := by
  induction program generalizing past state states with
  | ret value => exact always
  | ask request next ih =>
      intro before _ answer after served
      obtain ⟨goodStep, later⟩ :=
        always (before party) trivial answer (after party) served.1
      refine ⟨⟨rfl, goodStep⟩, ?_⟩
      apply ih answer
      rw [List.map_append]
      exact later

section Responders

variable [DecidableEq Party]

end Responders

/-! ## The steps that were taken -/

/-- The steps that the threads of a pool have taken. -/
def Pool.Taken (pool : Pool ι σ Req Ans α) (step : Step σ Req Ans) : Prop :=
  ∃ index, step ∈ (pool index).past

section Taken

variable [DecidableEq ι] {pool : Pool ι σ Req Ans α} {index : ι}
  {step : Step σ Req Ans} {program : Program Req Ans α}

/-- A step makes itself taken, and no other. -/
theorem Pool.taken_advance (other : Step σ Req Ans) :
    (pool.advance index step program).Taken other ↔ pool.Taken other ∨ other = step := by
  constructor
  · rintro ⟨place, member⟩
    by_cases same : place = index
    · subst same
      rw [Pool.advance_same, List.mem_append, List.mem_singleton] at member
      exact member.imp (fun earlier => ⟨place, earlier⟩) id
    · rw [Pool.advance_other _ same] at member
      exact .inl ⟨place, member⟩
  · rintro (⟨place, member⟩ | rfl)
    · by_cases same : place = index
      · subst same
        exact ⟨place, by simp [member]⟩
      · exact ⟨place, by rwa [Pool.advance_other _ same]⟩
    · exact ⟨index, by simp⟩

/-- What holds of the steps taken so far and of the next one holds of all. -/
theorem Pool.forall_advance {holds : ι → Step σ Req Ans → Prop}
    (earlier : ∀ place, ∀ step ∈ (pool place).past, holds place step)
    (next : holds index step) :
    ∀ place, ∀ other ∈ (pool.advance index step program place).past, holds place other := by
  intro place other member
  by_cases same : place = index
  · subst same
    rw [Pool.advance_same, List.mem_append, List.mem_singleton] at member
    rcases member with member | rfl
    · exact earlier place other member
    · exact next
  · rw [Pool.advance_other _ same] at member
    exact earlier place other member

/-- A thread that has returned stays as it is while others take steps. -/
theorem Pool.advance_finished (running : ¬ (pool index).Finished) {place : ι} {value : α}
    (returned : (pool place).program = ret value) :
    (pool.advance index step program) place = pool place := by
  apply Pool.advance_other
  rintro rfl
  exact running ⟨value, returned⟩

end Taken

end Program
