import DlcStack.ManagerRuns

/-!
# Progress of contracts

The transitions that steps make, where each write takes its full effect or
fails.  Along periodic checks every contract moves through its stages at most
once, and the store holds what its last transition made of it.
-/

namespace DlcStack

namespace LinkManager

open Program

/-- The record that a step finds, and what it replaces it by. -/
def transition? : WalletStep → Option (DlcContract × DlcContract)
  | ⟨before, .updateContract target, .ok _, _⟩ =>
      (before.find? target.getId).map fun source => (source, target)
  | _ => none

def transitions (steps : List WalletStep) : List (DlcContract × DlcContract) :=
  steps.filterMap transition?

theorem transitions_append (front back : List WalletStep) :
    transitions (front ++ back) = transitions front ++ transitions back :=
  List.filterMap_append

theorem transition?_of_reads {step : WalletStep}
    (reads : step.request.isWrite = false) : transition? step = none := by
  obtain ⟨before, request, answer, after⟩ := step
  cases request <;> first
    | rfl
    | cases reads

theorem transitions_of_reads {steps : List WalletStep}
    (reads : ∀ step ∈ steps, step.request.isWrite = false) : transitions steps = [] :=
  List.filterMap_eq_nil_iff.mpr fun step member => transition?_of_reads (reads step member)

/-- A check makes no transition, or one transition of its contract. -/
theorem CheckRun.transition {manager : Manager} {check : Check}
    {start final : ContractStore} (run : CheckRun False manager check start final) :
    (final = start ∧ transitions check.steps = [] ∧ check.result ≠ .ok true) ∨
    ∃ target, Warranted manager check.steps check.source target ∧
      transitions check.steps = [(check.source, target)] ∧
      check.result = .ok target.refunded?.isNone ∧
      ∀ id, final.find? id =
        if id = check.source.getId then some target else start.find? id := by
  rcases run.outcome with
    ⟨same, still, idle⟩ |
    ⟨front, target, answer, split, prepares, warranted, written, result⟩
  · exact .inl ⟨same, transitions_of_reads fun step member =>
      (idle_requests idle step member).1, still⟩
  · have early : transitions front = [] := transitions_of_reads fun step member =>
      (prepares.requests step member).1
    have stored := run.stored
    rw [← warranted.ids.1] at stored
    rw [split, transitions_append, early, result]
    rcases written with ⟨rfl, effect⟩ | ⟨⟨error, rfl⟩, rfl | ⟨none, _⟩⟩
    · exact .inr ⟨target, warranted.mono (List.subset_append_left _ _),
        by simp [transitions, transition?, stored], rfl,
        find?_of_warranted warranted effect⟩
    · exact .inl ⟨rfl, rfl, by simp [Except.map]⟩
    · exact none.elim

/-- How far a contract has come. -/
def stage : DlcContract → Nat
  | .confirmed _ => 1
  | .preClosed _ => 2
  | .refunded _ => 2
  | .closed _ => 3
  | _ => 0

theorem stage_lt_of_warranted {manager : Manager} {steps : List WalletStep}
    {source target : DlcContract} (warranted : Warranted manager steps source target) :
    stage source < stage target := by
  cases warranted <;> simp [stage]

theorem watched_of_warranted {manager : Manager} {steps : List WalletStep}
    {source target : DlcContract} (warranted : Warranted manager steps source target) :
    ∃ accepted, source.acceptedContract? = some accepted := by
  cases warranted <;> exact ⟨_, rfl⟩

/-- The accepted contract under a record stays the same while it is watched. -/
theorem accepted_of_warranted {manager : Manager} {steps : List WalletStep}
    {source target : DlcContract} {accepted : AcceptedContract}
    (warranted : Warranted manager steps source target)
    (watched : target.acceptedContract? = some accepted) :
    source.acceptedContract? = some accepted := by
  cases warranted <;> first
    | exact watched
    | cases watched

/-- What the steps made of the store that they began with. -/
structure Progress (origin : ContractStore) (past : List WalletStep)
    (store : ContractStore) : Prop where
  /-- The last transition of a contract is what is stored of it. -/
  latest : ∀ front source target back,
    transitions past = front ++ (source, target) :: back →
    (∀ later ∈ back, later.1.getId ≠ source.getId) →
      store.find? source.getId = some target
  /-- No contract falls behind a stage that it has reached. -/
  reached : ∀ source target, (source, target) ∈ transitions past →
    ∃ contract, store.find? source.getId = some contract ∧
      stage source < stage contract
  /-- The transitions of one contract start from ever later stages. -/
  onward : (transitions past).Pairwise fun first second =>
    first.1.getId = second.1.getId → stage first.1 < stage second.1
  /-- Contracts that are watched now were watched from the beginning. -/
  watched : ∀ id contract accepted, store.find? id = some contract →
    contract.acceptedContract? = some accepted →
      ∃ first, origin.find? id = some first ∧
        first.acceptedContract? = some accepted
  /-- Transitions are those of contracts watched from the beginning. -/
  known : ∀ source target, (source, target) ∈ transitions past →
    ∃ accepted first, source.acceptedContract? = some accepted ∧
      origin.find? source.getId = some first ∧
      first.acceptedContract? = some accepted

theorem progress_refl (store : ContractStore) : Progress store [] store where
  latest := by
    intro front source target back split
    simp [transitions] at split
  reached := by simp [transitions]
  onward := List.Pairwise.nil
  watched := fun _ contract _ found watched => ⟨contract, found, watched⟩
  known := by simp [transitions]

/-- Steps that only read leave the progress. -/
theorem Progress.read {origin store : ContractStore} {past steps : List WalletStep}
    (progress : Progress origin past store)
    (reads : ∀ step ∈ steps, step.request.isWrite = false) :
    Progress origin (past ++ steps) store := by
  have same : transitions (past ++ steps) = transitions past := by
    rw [transitions_append, transitions_of_reads reads, List.append_nil]
  exact ⟨same ▸ progress.latest, same ▸ progress.reached, same ▸ progress.onward,
    progress.watched, same ▸ progress.known⟩

theorem Progress.check {manager : Manager} {origin start final : ContractStore}
    {past : List WalletStep} {check : Check} (progress : Progress origin past start)
    (run : CheckRun False manager check start final) :
    Progress origin (past ++ check.steps) final := by
  rcases run.transition with
    ⟨rfl, none, _⟩ | ⟨target, warranted, one, _, effect⟩
  · have same : transitions (past ++ check.steps) = transitions past := by
      rw [transitions_append, none, List.append_nil]
    exact ⟨same ▸ progress.latest, same ▸ progress.reached, same ▸ progress.onward,
      progress.watched, same ▸ progress.known⟩
  · have more : transitions (past ++ check.steps) =
        transitions past ++ [(check.source, target)] := by
      rw [transitions_append, one]
    have stored := run.stored
    have further := stage_lt_of_warranted warranted
    -- how earlier transitions of the same contract compare to this one
    have earlier (source after : DlcContract)
        (member : (source, after) ∈ transitions past)
        (same : source.getId = check.source.getId) :
        stage source < stage check.source := by
      obtain ⟨contract, found, ahead⟩ := progress.reached source after member
      rw [same, stored] at found
      obtain rfl := Option.some.inj found
      exact ahead
    constructor
    · intro before source after back split last
      rw [more] at split
      rw [effect]
      cases back using List.reverseRecOn with
      | nil =>
          obtain ⟨_, same⟩ := List.append_inj' split rfl
          obtain ⟨rfl, rfl⟩ := Prod.mk.inj (List.singleton_inj.mp same)
          exact if_pos rfl
      | append_singleton back final =>
          have split : transitions past ++ [(check.source, target)] =
              (before ++ (source, after) :: back) ++ [final] := by simpa using split
          obtain ⟨sooner, same⟩ := List.append_inj' split rfl
          obtain rfl := List.singleton_inj.mp same
          have other := last (check.source, target) (by simp)
          rw [if_neg (Ne.symm other)]
          exact progress.latest before source after back sooner
            fun later member => last later (by simp [member])
    · intro source after member
      rw [more] at member
      rw [effect]
      by_cases same : source.getId = check.source.getId
      · rw [if_pos same]
        refine ⟨target, rfl, ?_⟩
        rcases List.mem_append.mp member with member | member
        · exact Nat.lt_trans (earlier source after member same) further
        · obtain ⟨rfl, rfl⟩ := Prod.mk.inj (List.mem_singleton.mp member)
          exact further
      · rw [if_neg same]
        rcases List.mem_append.mp member with member | member
        · exact progress.reached source after member
        · obtain ⟨rfl, rfl⟩ := Prod.mk.inj (List.mem_singleton.mp member)
          exact absurd rfl same
    · rw [more, List.pairwise_append]
      refine ⟨progress.onward, List.pairwise_singleton _ _, ?_⟩
      rintro ⟨source, after⟩ member _ last same
      obtain rfl := List.mem_singleton.mp last
      exact earlier source after member same
    · intro id contract accepted found watched
      rw [effect] at found
      split_ifs at found with same
      · obtain rfl := Option.some.inj found
        rw [same]
        exact progress.watched _ _ _ stored (accepted_of_warranted warranted watched)
      · exact progress.watched id contract accepted found watched
    · intro source after member
      rw [more] at member
      rcases List.mem_append.mp member with member | member
      · exact progress.known source after member
      · obtain ⟨rfl, rfl⟩ := Prod.mk.inj (List.mem_singleton.mp member)
        obtain ⟨accepted, watched⟩ := watched_of_warranted warranted
        obtain ⟨first, found, same⟩ := progress.watched _ _ _ stored watched
        exact ⟨accepted, first, watched, found, same⟩

/-- A periodic check makes progress. -/
theorem Progress.periodicCheck {manager : Manager} {origin start final : ContractStore}
    {past steps : List WalletStep} {result : Except DlcError (List Report)}
    (progress : Progress origin past start)
    (run : Runs (World False) (periodicCheck manager).run start steps result final) :
    Progress origin (past ++ steps) final := by
  refine (runs_periodicCheck run).invariant (Progress origin) ?_ ?_ (by decide) progress
  · intro past store listing answer asks progress
    refine progress.read fun step member => ?_
    obtain rfl := List.mem_singleton.mp member
    exact (WalletRequest.isListing_reads asks).1
  · exact fun past check start final progress run => progress.check run

/-- The moves of contracts with events are those of contracts stored from the
beginning. -/
theorem Progress.moved {origin store : ContractStore} {past : List WalletStep}
    (progress : Progress origin past store)
    {move : DlcContract × DlcContract} (member : move ∈ transitions past) :
    ∃ first, origin.find? move.1.getId = some first ∧
      first.acceptedContract?.isSome = true ∧ first.eventId? = move.1.eventId? := by
  obtain ⟨accepted, first, watched, found, same⟩ := progress.known _ _ member
  exact ⟨first, found, by simp [same],
    (eventId?_of_accepted same).2.trans (eventId?_of_accepted watched).2.symm⟩

end LinkManager

end DlcStack
