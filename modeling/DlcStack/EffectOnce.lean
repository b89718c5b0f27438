import DlcStack.EffectProjection

/-!
# Programs that make one request of a kind

All requests of a program are free but for one, which it may make at any point.  Where
such programs run among others, the steps before that request are all free.
-/

namespace Program

variable {Req : Type} {Ans : Req → Type} {α β σ : Type} {free : Req → Prop}

/-- At most one request of the program is not free. -/
def Once (free : Req → Prop) : Program Req Ans α → Prop
  | ret _ => True
  | ask request next =>
      (free request ∧ ∀ answer, Once free (next answer)) ∨ ∀ answer, Asks free (next answer)

/-- Programs that make free requests only. -/
theorem Asks.once {program : Program Req Ans α} (asks : Asks free program) :
    Once free program := by
  induction program with
  | ret value => trivial
  | ask request next ih => exact .inl ⟨asks.1, fun answer => ih answer (asks.2 answer)⟩

/-- The request is in the rest. -/
theorem Asks.once_bind {program : Program Req Ans α} {rest : α → Program Req Ans β}
    (first : Asks free program) (second : ∀ value, Once free (rest value)) :
    Once free (program >>= rest) := by
  induction program with
  | ret value => exact second value
  | ask request next ih => exact .inl ⟨first.1, fun answer => ih answer (first.2 answer)⟩

/-- The request is in the first part. -/
theorem Once.bind {program : Program Req Ans α} {rest : α → Program Req Ans β}
    (first : Once free program) (second : ∀ value, Asks free (rest value)) :
    Once free (program >>= rest) := by
  induction program with
  | ret value => exact (second value).once
  | ask request next ih =>
      rcases first with ⟨isFree, later⟩ | later
      · exact .inl ⟨isFree, fun answer => ih answer (later answer)⟩
      · exact .inr fun answer => asks_bind (later answer) second

theorem Asks.once_run_bind {ε : Type} {program : ExceptT ε (Program Req Ans) α}
    {rest : α → ExceptT ε (Program Req Ans) β} (first : Asks free program.run)
    (second : ∀ value, Once free (rest value).run) : Once free (program >>= rest).run := by
  rw [ExceptT.run_bind]
  apply first.once_bind
  intro result
  cases result with
  | ok value => exact second value
  | error error => trivial

theorem Asks.once_run_lift_bind {ε : Type} {program : Program Req Ans α}
    {rest : α → ExceptT ε (Program Req Ans) β} (first : Asks free program)
    (second : ∀ value, Once free (rest value).run) :
    Once free (ExceptT.lift program >>= rest).run := by
  rw [ExceptT.run_bind_lift]
  exact first.once_bind second

theorem Once.run_bind {ε : Type} {program : ExceptT ε (Program Req Ans) α}
    {rest : α → ExceptT ε (Program Req Ans) β} (first : Once free program.run)
    (second : ∀ value, Asks free (rest value).run) : Once free (program >>= rest).run := by
  rw [ExceptT.run_bind]
  apply first.bind
  intro result
  cases result with
  | ok value => exact second value
  | error error => trivial

theorem Once.run_lift_bind {ε : Type} {program : Program Req Ans α}
    {rest : α → ExceptT ε (Program Req Ans) β} (first : Once free program)
    (second : ∀ value, Asks free (rest value).run) :
    Once free (ExceptT.lift program >>= rest).run := by
  rw [ExceptT.run_bind_lift]
  exact first.bind second

/-- A step is free, or all steps before it are. -/
def FirstOfKind (free : Req → Prop) (past : List (Step σ Req Ans)) (step : Step σ Req Ans) :
    Prop :=
  free step.request ∨ ∀ earlier ∈ past, free earlier.request

/-- The rule of the programs that make one such request. -/
theorem Once.always {env : Environment σ Req Ans} {rely : σ → σ → Prop}
    {program : Program Req Ans α} (once : Once free program) {past : List (Step σ Req Ans)}
    {state : σ} (before : ∀ earlier ∈ past, free earlier.request) :
    Always env rely (FirstOfKind free) (fun _ _ _ => True) past state program := by
  induction program generalizing past state with
  | ret value => trivial
  | ask request next ih =>
      intro middle _ answer after _
      refine ⟨.inr before, ?_⟩
      rcases once with ⟨isFree, later⟩ | later
      · apply ih answer (later answer)
        intro earlier member
        rcases List.mem_append.mp member with member | member
        · exact before earlier member
        · obtain rfl := List.mem_singleton.mp member
          exact isFree
      · exact ((later answer).always_past (fun _ => True)
          (fun _ _ isFree _ => ⟨.inl isFree, trivial⟩) trivial).post_mono fun _ _ _ => id

end Program
