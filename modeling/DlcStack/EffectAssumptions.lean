import DlcStack.EffectInterleaving
import DlcStack.EffectSessions

/-!
# Conditions under an assumption on the steps

A verification condition that is proved where every step of a program meets a condition
says something of the runs whose steps met it, among other programs that need not.
-/

namespace Program

variable {Req : Type} {Ans : Req → Type} {α σ ι : Type}

/-- What holds under the assumption holds of the steps that meet it. -/
theorem Always.assuming {env : Environment σ Req Ans} {rely : σ → σ → Prop}
    {meets : Step σ Req Ans → Prop} {good : List (Step σ Req Ans) → Step σ Req Ans → Prop}
    {post : List (Step σ Req Ans) → α → σ → Prop} {program : Program Req Ans α}
    {past : List (Step σ Req Ans)} {state : σ}
    (always : Always (env.restrict meets) rely good post past state program) :
    Always env rely (fun _ _ => True)
      (fun past' value state => (∀ step, step ∈ past' → meets step) → post past' value state)
      past state program := by
  induction program generalizing past state with
  | ret value => exact fun _ => always
  | ask request next ih =>
      intro before moved answer after served
      refine ⟨trivial, ?_⟩
      by_cases met : meets ⟨before, request, answer, after⟩
      · exact ih answer (always before moved answer after ⟨served, met⟩).2
      · -- the step stays among the steps, so the assumption is not met
        have trivially : Always env rely (fun _ _ => True) (fun _ _ _ => True)
            (past ++ [⟨before, request, answer, after⟩]) after (next answer) :=
          always_of_forall (fun _ _ => trivial) (fun _ _ _ => trivial) _
        refine trivially.post_append.post_mono ?_
        rintro _ value state ⟨⟨later, rfl⟩, -⟩ all
        exact absurd (all _ (by simp)) met

variable [DecidableEq ι]

/-- The run up to a step. -/
theorem Interleaved.before_step {env : Environment σ Req Ans}
    {meets : Pool ι σ Req Ans α → ι → Step σ Req Ans → Prop}
    {pool current : Pool ι σ Req Ans α} {state final : σ}
    {trace : List (ι × Step σ Req Ans)}
    (run : Interleaved env meets pool state trace current final)
    {front back : List (ι × Step σ Req Ans)} {index : ι} {step : Step σ Req Ans}
    (split : trace = front ++ (index, step) :: back) :
    ∃ middle, Interleaved env meets pool state front middle step.before := by
  induction run generalizing back with
  | idle => simp at split
  | @move trace current before after other request next answer earlier asks served _ ih =>
      cases back using List.reverseRecOn with
      | nil =>
          obtain ⟨rfl, same⟩ := List.append_inj' split rfl
          obtain ⟨rfl, rfl⟩ := Prod.mk.inj (List.singleton_inj.mp same)
          exact ⟨current, earlier⟩
      | append_singleton back last =>
          have split : trace ++ [(other, ⟨before, request, answer, after⟩)] =
              (front ++ (index, step) :: back) ++ [last] := by simpa using split
          exact ih (List.append_inj' split rfl).1

/-- The steps of a thread around one of them. -/
theorem stepsOf_split (index : ι) (front back : List (ι × Step σ Req Ans))
    (step : Step σ Req Ans) :
    stepsOf index (front ++ (index, step) :: back) =
      stepsOf index front ++ step :: stepsOf index back := by
  simp [stepsOf]

/-- A step of a thread is one of the trace. -/
theorem mem_stepsOf {index : ι} {trace : List (ι × Step σ Req Ans)}
    {step : Step σ Req Ans} : step ∈ stepsOf index trace ↔ (index, step) ∈ trace := by
  unfold stepsOf
  rw [List.mem_filterMap]
  constructor
  · rintro ⟨⟨other, taken⟩, member, selected⟩
    split_ifs at selected with same
    obtain rfl := Option.some.inj selected
    rwa [← same]
  · intro member
    exact ⟨(index, step), member, by simp⟩

end Program
