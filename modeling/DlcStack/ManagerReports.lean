import DlcStack.ManagerTransitions

/-!
# What a periodic check reports

A periodic check returns the contracts that it moved forward, with their
events.  The report is lost when a later phase cannot read its contracts, or
when a moved contract has no event.
-/

namespace DlcStack

namespace LinkManager

open Program

/-- The transitions that a periodic check reports. -/
def isReported : DlcContract → DlcContract → Bool
  | .signed _, .confirmed _ => true
  | .confirmed _, .preClosed _ => true
  | .confirmed _, .closed _ => true
  | .preClosed _, .closed _ => true
  | _, _ => false

/-- The records that the steps take along these transitions, as they were. -/
def moves (steps : List WalletStep) : List DlcContract :=
  ((transitions steps).filter fun step => isReported step.1 step.2).map Prod.fst

/-- The list has one entry for each of the contracts, in order. -/
def Lists (found : List Report) (contracts : List DlcContract) : Prop :=
  found.map (fun report => (report.1, some report.2)) =
    contracts.map fun contract => (contract.getId, contract.eventId?)

/-- A returned list has one entry for each contract moved, in order; after an
error no contract was moved. -/
def ReportsMoves (steps : List WalletStep) :
    Except DlcError (List Report) → Prop
  | .ok found => Lists found (moves steps)
  | .error _ => moves steps = []

instance (steps : List WalletStep) (result : Except DlcError (List Report)) :
    Decidable (ReportsMoves steps result) :=
  match result with
  | .ok found => inferInstanceAs (Decidable
      (found.map (fun report => (report.1, some report.2)) =
        (moves steps).map fun contract => (contract.getId, contract.eventId?)))
  | .error _ => inferInstanceAs (Decidable (moves steps = []))

/-- Every contract moved has an event, and no request for the contracts of a
later phase fails once a contract was moved. -/
def Reportable (steps : List WalletStep) : Prop :=
  (∀ contract ∈ moves steps, contract.eventId? ≠ none) ∧
    ∀ front step back, steps = front ++ step :: back →
      step.request.isListing = true → failed step = true → moves front = []

theorem moves_append (front back : List WalletStep) :
    moves (front ++ back) = moves front ++ moves back := by
  simp [moves, transitions_append]

theorem moves_of_reads {steps : List WalletStep}
    (reads : ∀ step ∈ steps, step.request.isWrite = false) : moves steps = [] := by
  simp [moves, transitions_of_reads reads]

/-- A warranted update is reported unless it records a refund. -/
theorem isReported_of_warranted {manager : Manager} {steps : List WalletStep}
    {source target : DlcContract}
    (warranted : Warranted manager steps source target) :
    isReported source target = target.refunded?.isNone := by
  cases warranted <;> rfl

/-- The contract that a check reports as moved. -/
def Check.moved? (check : Check) : Option DlcContract :=
  match check.result with
  | .ok true => some check.source
  | _ => none

/-- A check moves its contract exactly when it says so. -/
theorem CheckRun.moves {manager : Manager} {check : Check}
    {start final : ContractStore} (run : CheckRun False manager check start final) :
    moves check.steps = check.moved?.toList := by
  rcases run.transition with
    ⟨_, none, still⟩ | ⟨target, warranted, one, result, _⟩
  · simp [LinkManager.moves, none, Check.moved?]
  · simp only [LinkManager.moves, one, Check.moved?, result, List.filter_cons,
      isReported_of_warranted warranted, List.filter_nil]
    cases target.refunded? <;> rfl

theorem ChecksRun.moves {manager : Manager} {checks : List Check}
    {start final : ContractStore} (runs : ChecksRun False manager start checks final) :
    moves (checks.flatMap (·.steps)) = checks.filterMap Check.moved? := by
  induction checks generalizing start with
  | nil => rfl
  | cons check rest ih =>
      obtain ⟨middle, run, runs⟩ := runs
      rw [List.flatMap_cons, moves_append, run.moves, ih runs, List.filterMap_cons]
      cases check.moved? <;> rfl

/-- What a loop returns, in terms of the contracts its checks moved. -/
theorem reports_eq (checks : List Check) :
    match reports checks with
    | .ok found => Lists found (checks.filterMap Check.moved?)
    | .error _ =>
        ∃ contract ∈ checks.filterMap Check.moved?, contract.eventId? = none := by
  induction checks with
  | nil => rfl
  | cons check rest ih =>
      obtain ⟨source, steps, result⟩ := check
      rcases result with error | _ | _
      · exact ih
      · exact ih
      · simp only [reports, Check.moved?, List.filterMap_cons]
        cases event : source.eventId? with
        | none => exact ⟨source, by simp, event⟩
        | some eventId =>
            cases later : reports rest with
            | error error =>
                rw [later] at ih
                obtain ⟨contract, member, missing⟩ := ih
                exact ⟨contract, List.mem_cons_of_mem _ member, missing⟩
            | ok found =>
                rw [later] at ih
                simpa [Except.map, Lists, event] using ih

/-- No step of a check asks for the contracts in a state, or notifies anyone. -/
theorem CheckRun.consults {repliesLost : Prop} {manager : Manager} {check : Check}
    {start final : ContractStore}
    (run : CheckRun repliesLost manager check start final) :
    ∀ step ∈ check.steps,
      step.request.isListing = false ∧ step.request.isPost = false := by
  rcases run.outcome with
    ⟨_, _, idle⟩ | ⟨front, target, answer, split, prepares, _, _, _⟩
  · exact fun step member => (idle_requests idle step member).2
  · intro step member
    rw [split] at member
    rcases List.mem_append.mp member with member | member
    · exact (prepares.requests step member).2
    · obtain rfl := List.mem_singleton.mp member
      exact ⟨rfl, rfl⟩

theorem ChecksRun.consults {repliesLost : Prop} {manager : Manager}
    {checks : List Check} {start final : ContractStore}
    (runs : ChecksRun repliesLost manager start checks final) :
    ∀ step ∈ checks.flatMap (·.steps),
      step.request.isListing = false ∧ step.request.isPost = false := by
  induction checks generalizing start with
  | nil => simp
  | cons check rest ih =>
      obtain ⟨middle, run, runs⟩ := runs
      rw [List.flatMap_cons]
      intro step member
      rcases List.mem_append.mp member with member | member
      · exact run.consults step member
      · exact ih runs step member

theorem PhaseRun.silent {repliesLost : Prop} {manager : Manager}
    {listing : WalletRequest} {start final : ContractStore} {steps : List WalletStep}
    {result : Except DlcError (List Report)} (asks : listing.isListing = true)
    (run : PhaseRun repliesLost manager listing start steps result final) :
    ∀ step ∈ steps, step.request.isPost = false := by
  have first := (WalletRequest.isListing_reads asks).2
  cases run with
  | unread =>
      intro step member
      obtain rfl := List.mem_singleton.mp member
      exact first
  | checked runs =>
      intro step member
      rcases List.mem_cons.mp member with rfl | member
      · exact first
      · exact (runs.consults step member).2

/-- The phases of a periodic check notify nobody. -/
theorem PhasesRun.silent {repliesLost : Prop} {manager : Manager}
    {phases : List WalletRequest} {start final : ContractStore} {steps : List WalletStep}
    {result : Except DlcError (List Report)}
    (asks : ∀ listing ∈ phases, listing.isListing = true)
    (run : PhasesRun repliesLost manager phases start steps result final) :
    ∀ step ∈ steps, step.request.isPost = false := by
  induction run with
  | done => simp
  | stopped phase => exact phase.silent (asks _ (by simp))
  | continued phase _ ih =>
      intro step member
      rcases List.mem_append.mp member with member | member
      · exact phase.silent (asks _ (by simp)) step member
      · exact ih (fun listing member => asks listing (List.mem_cons_of_mem _ member))
          step member

/-- What phases return: the contracts they moved, when every request for
contracts was answered; otherwise an error, for a contract without an event or
because the last request, for contracts, failed. -/
def PhasesReport (steps : List WalletStep) : Except DlcError (List Report) → Prop
  | .ok found =>
      Lists found (moves steps) ∧
        ∀ step ∈ steps, step.request.isListing = true → failed step = false
  | .error _ =>
      (∃ contract ∈ moves steps, contract.eventId? = none) ∨
        ∃ front step, steps = front ++ [step] ∧ failed step = true ∧
          step.request.isListing = true

theorem PhaseRun.report {manager : Manager} {listing : WalletRequest}
    {start final : ContractStore} {steps : List WalletStep}
    {result : Except DlcError (List Report)} (asks : listing.isListing = true)
    (run : PhaseRun False manager listing start steps result final) :
    PhasesReport steps result := by
  cases run with
  | unread => exact .inr ⟨[], _, rfl, rfl, asks⟩
  | @checked _ contracts checks runs =>
      have reads := (WalletRequest.isListing_reads asks).1
      have moved : moves (⟨start, listing, .ok contracts, start⟩ ::
          checks.flatMap (·.steps)) = checks.filterMap Check.moved? := by
        rw [← List.singleton_append, moves_append, moves_of_reads, runs.moves,
          List.nil_append]
        intro step member
        obtain rfl := List.mem_singleton.mp member
        exact reads
      have returned := reports_eq checks
      revert returned
      cases reports checks with
      | error error => exact fun missing => .inl (by rwa [moved])
      | ok found =>
          refine fun lists => ⟨by rwa [moved], ?_⟩
          intro step member listed
          rcases List.mem_cons.mp member with rfl | member
          · rfl
          · rw [(runs.consults step member).1] at listed
            cases listed

theorem PhasesRun.report {manager : Manager} {phases : List WalletRequest}
    {start final : ContractStore} {steps : List WalletStep}
    {result : Except DlcError (List Report)}
    (asks : ∀ listing ∈ phases, listing.isListing = true)
    (run : PhasesRun False manager phases start steps result final) :
    PhasesReport steps result := by
  induction run with
  | done => exact ⟨rfl, by simp⟩
  | stopped phase => exact phase.report (asks _ (by simp))
  | @continued listing rest start middle final front back found result phase _ ih =>
      obtain ⟨first, answered⟩ := phase.report (asks listing (by simp))
      have second := ih fun listing member => asks listing (List.mem_cons_of_mem _ member)
      cases result with
      | ok later =>
          obtain ⟨second, answered'⟩ := second
          refine ⟨?_, ?_⟩
          · unfold Lists at first second ⊢
            rw [moves_append, List.map_append, List.map_append, first, second]
          · intro step member
            rcases List.mem_append.mp member with member | member
            · exact answered step member
            · exact answered' step member
      | error error =>
          rcases second with ⟨contract, member, missing⟩ | ⟨inner, step, rfl, ends⟩
          · refine .inl ⟨contract, ?_, missing⟩
            rw [moves_append]
            exact List.mem_append_right _ member
          · exact .inr ⟨front ++ inner, step, by simp, ends⟩

/-- A periodic check reports exactly the contracts that it moved if and only if
every contract it moved has an event and no later request for contracts failed. -/
theorem periodicCheck_reportsMoves_iff {manager : Manager}
    {start final : ContractStore} {steps : List WalletStep}
    {result : Except DlcError (List Report)}
    (run : Runs (World False) (periodicCheck manager).run start steps result final) :
    ReportsMoves steps result ↔ Reportable steps := by
  have report := (runs_periodicCheck run).report (by decide)
  cases result with
  | ok found =>
      obtain ⟨lists, answered⟩ := report
      refine ⟨fun _ => ⟨?_, ?_⟩, fun _ => lists⟩
      · intro contract member missing
        have entry : (contract.getId, contract.eventId?) ∈
            (moves steps).map fun contract => (contract.getId, contract.eventId?) :=
          List.mem_map_of_mem member
        rw [← lists, missing] at entry
        simp at entry
      · intro front step back split listed failing
        rw [answered step (by simp [split]) listed] at failing
        cases failing
  | error error =>
      refine ⟨fun none => ⟨?_, ?_⟩, fun reportable => ?_⟩
      · simp [show moves steps = [] from none]
      · intro front step back split _ _
        have none : moves steps = [] := none
        rw [split, moves_append] at none
        exact (List.append_eq_nil_iff.mp none).1
      · rcases report with ⟨contract, member, missing⟩ | ⟨front, step, split, failing, listed⟩
        · exact absurd missing (reportable.1 contract member)
        · have before := reportable.2 front step [] split listed failing
          show moves steps = []
          rw [split, moves_append, before, List.nil_append]
          refine moves_of_reads fun other member => ?_
          obtain rfl := List.mem_singleton.mp member
          cases request : other.request <;> first
            | rfl
            | (rw [request] at listed; cases listed)

/-- A contract that is confirmed while the list of confirmed contracts cannot be
read afterwards. -/
def sampleRun (down : WalletRequest → Bool) :
    List WalletStep × Except DlcError (List Report) × ContractStore :=
  eval (serve (sampleOthers (fun txid => if txid = "fund" then 6 else 0) false 0 down))
    (periodicCheck sampleManager).run
    (sampleStore (.signed (sampleSigned (.replicate 32 1) (.replicate 32 2))))

theorem periodicCheck_reportsMoves_iff_sampleRun :
    Reportable (sampleRun fun _ => false).1 :=
  (periodicCheck_reportsMoves_iff (runs_eval _ (world_serve False _) _ _)).mp
    (by decide)

/-- A confirmation that is not reported. -/
theorem periodicCheck_loses_report :
    ¬ ∀ (manager : Manager) (start final : ContractStore) (steps : List WalletStep)
      (result : Except DlcError (List Report)),
      Runs (World False) (periodicCheck manager).run start steps result final →
        ReportsMoves steps result := by
  intro always
  have reported := always _ _ _ _ _
    (runs_eval (serve (sampleOthers (fun txid => if txid = "fund" then 6 else 0) false 0
      (· == .getConfirmedContracts))) (world_serve False _)
      (periodicCheck sampleManager).run
      (sampleStore (.signed (sampleSigned (.replicate 32 1) (.replicate 32 2)))))
  revert reported
  decide

end LinkManager

end DlcStack
