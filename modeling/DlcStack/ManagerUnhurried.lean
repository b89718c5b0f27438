import DlcStack.ManagerTransitions

/-!
# One move for each contract

A periodic check runs three phases, and each sees what the earlier ones made of
the contracts: a contract whose funding becomes final may be settled in the same
check, and a CET that the check has just built may already be final.  When the
answers of the blockchain, the attestors and the clock rule this out, a periodic
check moves no contract twice, and none past the pre-closed state.
-/

namespace DlcStack

namespace LinkManager

open Program

/-! ## What a check is told -/

/-- The confirmations that the blockchain reports, of which transaction, and the
store at that time. -/
def reportedConfirmations (steps : List WalletStep) :
    List (ContractStore × Txid × Nat) :=
  steps.filterMap fun
    | ⟨before, .getTransactionConfirmations txid, .ok confirmations, _⟩ =>
        some (before, txid, confirmations)
    | _ => none

/-- The CETs that are signed, and of which contract. -/
def signedCets (steps : List WalletStep) : List (SignedContract × Transaction) :=
  steps.filterMap fun
    | ⟨_, .getSignedCet contract _ _ _, .ok cet, _⟩ => some (contract, cet)
    | _ => none

/-- The times that the clock gives. -/
def unixtimes (steps : List WalletStep) : List Nat :=
  steps.filterMap fun
    | ⟨_, .getUnixtime, .ok unixtime, _⟩ => some unixtime
    | _ => none

/-- The contracts whose fund transaction is reported as final while they are
stored as signed. -/
def funded (steps : List WalletStep) : List SignedContract :=
  (reportedConfirmations steps).flatMap fun (store, txid, confirmations) =>
    if nbConfirmations ≤ confirmations then
      (store.rows.filterMap DlcContract.signed?).filter fun contract =>
        contract.acceptedContract.dlcTransactions.fund.txid = txid
    else []

/-- No CET is final in the check that signs it. -/
def CetsPending (steps : List WalletStep) : Prop :=
  ∀ signed ∈ signedCets steps, ∀ report ∈ reportedConfirmations steps,
    report.2.1 = signed.2.txid → report.2.2 < nbConfirmations

/-- No contract is due for settlement, neither by a CET nor by its refund, in the
check that finds it funded. -/
def FundedNotDue (steps : List WalletStep) : Prop :=
  ∀ contract ∈ funded steps,
    (∀ signed ∈ signedCets steps, signed.1 ≠ contract) ∧
      ∀ unixtime ∈ unixtimes steps,
        unixtime < contract.acceptedContract.dlcTransactions.refund.lockTime

def Unhurried (steps : List WalletStep) : Prop :=
  CetsPending steps ∧ FundedNotDue steps

instance (steps : List WalletStep) : Decidable (CetsPending steps) :=
  inferInstanceAs (Decidable (∀ signed ∈ signedCets steps,
    ∀ report ∈ reportedConfirmations steps,
      report.2.1 = signed.2.txid → report.2.2 < nbConfirmations))

instance (steps : List WalletStep) : Decidable (FundedNotDue steps) :=
  inferInstanceAs (Decidable (∀ contract ∈ funded steps,
    (∀ signed ∈ signedCets steps, signed.1 ≠ contract) ∧
      ∀ unixtime ∈ unixtimes steps,
        unixtime < contract.acceptedContract.dlcTransactions.refund.lockTime))

instance (steps : List WalletStep) : Decidable (Unhurried steps) :=
  inferInstanceAs (Decidable (CetsPending steps ∧ FundedNotDue steps))

section Told

variable {steps more : List WalletStep}

theorem mem_reportedConfirmations {before after : ContractStore} {txid : Txid}
    {confirmations : Nat}
    (member : ⟨before, .getTransactionConfirmations txid, .ok confirmations, after⟩ ∈ steps) :
    (before, txid, confirmations) ∈ reportedConfirmations steps :=
  List.mem_filterMap.mpr ⟨_, member, rfl⟩

theorem mem_signedCets {contract : SignedContract} {info : ContractInfo}
    {adaptor : AdaptorInfo} {attestations : List (Nat × OracleAttestation)}
    {cet : Transaction}
    (reported : Reported steps (.getSignedCet contract info adaptor attestations) cet) :
    (contract, cet) ∈ signedCets steps := by
  obtain ⟨before, after, member⟩ := reported
  exact List.mem_filterMap.mpr ⟨_, member, rfl⟩

theorem mem_unixtimes {unixtime : Nat} (reported : Reported steps .getUnixtime unixtime) :
    unixtime ∈ unixtimes steps := by
  obtain ⟨before, after, member⟩ := reported
  exact List.mem_filterMap.mpr ⟨_, member, rfl⟩

theorem mem_funded {before after : ContractStore} {contract : SignedContract}
    {confirmations : Nat}
    (member : ⟨before, .getTransactionConfirmations
      contract.acceptedContract.dlcTransactions.fund.txid, .ok confirmations, after⟩ ∈ steps)
    (final : nbConfirmations ≤ confirmations)
    (stored : before.find? contract.acceptedContract.contractId = some (.signed contract)) :
    contract ∈ funded steps := by
  refine List.mem_flatMap.mpr ⟨_, mem_reportedConfirmations member, ?_⟩
  have row : DlcContract.signed contract ∈ before.rows := UniqueTable.mem_rows_iff.mpr stored
  simpa [final] using ⟨_, row, rfl⟩

theorem funded_mono (included : steps ⊆ more) : funded steps ⊆ funded more := by
  intro contract member
  obtain ⟨report, reported, found⟩ := List.mem_flatMap.mp member
  exact List.mem_flatMap.mpr ⟨report, List.filterMap_subset _ included reported, found⟩

theorem Unhurried.subset (unhurried : Unhurried more) (included : steps ⊆ more) :
    Unhurried steps := by
  obtain ⟨pending, notDue⟩ := unhurried
  refine ⟨fun signed member report reported => ?_, fun contract member => ⟨?_, ?_⟩⟩
  · exact pending signed (List.filterMap_subset _ included member) report
      (List.filterMap_subset _ included reported)
  · intro signed built
    exact (notDue contract (funded_mono included member)).1 signed
      (List.filterMap_subset _ included built)
  · intro unixtime given
    exact (notDue contract (funded_mono included member)).2 unixtime
      (List.filterMap_subset _ included given)

end Told

/-! ## What hurries -/

/-- Two moves of a contract in a row need an answer that hurries. -/
theorem hurried_of_warranted_twice {manager : Manager} {past later : List WalletStep}
    {source middle target : DlcContract}
    (first : Warranted manager past source middle)
    (second : Warranted manager later middle target)
    (foundFunded : ∀ contract, source = .signed contract → contract ∈ funded past) :
    ¬ Unhurried (past ++ later) := by
  rintro ⟨pending, notDue⟩
  have before := List.subset_append_left past later
  have after := List.subset_append_right past later
  cases first with
  | @confirm contract =>
      obtain ⟨unsigned, early⟩ := notDue _ (funded_mono before (foundFunded _ rfl))
      have unbuilt {cet : Transaction} {attestations : List (Nat × OracleAttestation)}
          (built : BuiltCet manager later contract cet attestations) : False := by
        obtain ⟨info, adaptor, _, _, reported⟩ := built
        exact unsigned _ (mem_signedCets (reported.mono after)) rfl
      cases second with
      | preClose built _ => exact unbuilt built
      | close built _ _ => exact unbuilt built
      | refund reported passed _ =>
          exact absurd (early _ (mem_unixtimes (reported.mono after))) (Nat.not_lt.mpr passed)
  | preClose built _ =>
      obtain ⟨info, adaptor, _, _, signed⟩ := built
      cases second with
      | settle reported enough =>
          obtain ⟨_, _, member⟩ := reported.mono after
          exact absurd (pending _ (mem_signedCets (signed.mono before)) _
            (mem_reportedConfirmations member) rfl) (Nat.not_lt.mpr enough)
  | close => cases second
  | settle => cases second
  | refund => cases second

/-- A confirmed contract is closed at once only by an answer that hurries. -/
theorem hurried_of_closed {manager : Manager} {steps : List WalletStep}
    {contract : SignedContract} {closed : ClosedContract}
    (warranted : Warranted manager steps (.confirmed contract) (.closed closed)) :
    ¬ Unhurried steps := by
  rintro ⟨pending, _⟩
  cases warranted with
  | close built reported enough =>
      obtain ⟨info, adaptor, _, _, signed⟩ := built
      obtain ⟨_, _, member⟩ := reported
      exact absurd (pending _ (mem_signedCets signed) _
        (mem_reportedConfirmations member) rfl) (Nat.not_lt.mpr enough)

/-- All steps of a check begin in the store in which the check begins. -/
theorem CheckRun.before {manager : Manager} {check : Check} {start final : ContractStore}
    (run : CheckRun False manager check start final) :
    ∀ step ∈ check.steps, step.before = start := by
  rcases run.outcome with ⟨_, _, idle⟩ | ⟨front, target, answer, split, prepares, _⟩
  · exact fun step member => ((run.linked.unchanged fun step member served =>
      served.unchanged (idle_requests idle step member).1).2 step member).1
  · have linked := run.linked
    rw [split] at linked ⊢
    obtain ⟨middle, first, _⟩ := linked_append.mp linked
    have still := (first.unchanged fun step member served =>
      served.unchanged (prepares.requests step member).1).2
    intro step member
    rcases List.mem_append.mp member with member | member
    · exact (still step member).1
    · obtain rfl := List.mem_singleton.mp member
      rfl

/-- Why the contracts were moved, and how often. -/
structure Calm (manager : Manager) (past : List WalletStep) : Prop where
  warranted : ∀ source target, (source, target) ∈ transitions past →
    Warranted manager past source target
  foundFunded : ∀ contract target, (.signed contract, target) ∈ transitions past →
    contract ∈ funded past
  once : Unhurried past → ((transitions past).map fun move => move.1.getId).Nodup

theorem calm_nil (manager : Manager) : Calm manager [] where
  warranted := by simp [transitions]
  foundFunded := by simp [transitions]
  once := fun _ => List.nodup_nil

/-- Steps without transitions. -/
theorem Calm.still {manager : Manager} {past steps : List WalletStep}
    (calm : Calm manager past) (none : transitions steps = []) :
    Calm manager (past ++ steps) := by
  have same : transitions (past ++ steps) = transitions past := by
    rw [transitions_append, none, List.append_nil]
  have before := List.subset_append_left past steps
  refine ⟨fun source target member => ?_, fun contract target member => ?_, fun unhurried => ?_⟩
  · exact (calm.warranted source target (same ▸ member)).mono before
  · exact funded_mono before (calm.foundFunded contract target (same ▸ member))
  · exact same ▸ calm.once (unhurried.subset before)

/-- An element of a list without repetition, seen from its last occurrence. -/
theorem split_of_nodup {α β : Type} {key : α → β} {list : List α} {element : α}
    (distinct : (list.map key).Nodup) (member : element ∈ list) :
    ∃ front back, list = front ++ element :: back ∧
      ∀ later ∈ back, key later ≠ key element := by
  obtain ⟨front, back, rfl⟩ := List.append_of_mem member
  refine ⟨front, back, rfl, fun later laterMem same => ?_⟩
  rw [List.map_append, List.map_cons, List.nodup_append, List.nodup_cons] at distinct
  exact distinct.2.1.1 (List.mem_map.mpr ⟨later, laterMem, same⟩)

theorem Calm.check {manager : Manager} {origin start final : ContractStore}
    {past : List WalletStep} {check : Check} (calm : Calm manager past)
    (progress : Progress origin past start)
    (run : CheckRun False manager check start final) :
    Calm manager (past ++ check.steps) := by
  rcases run.transition with ⟨_, none, _⟩ | ⟨target, warranted, one, _, _⟩
  · exact calm.still none
  · have more : transitions (past ++ check.steps) =
        transitions past ++ [(check.source, target)] := by
      rw [transitions_append, one]
    have before := List.subset_append_left past check.steps
    have after := List.subset_append_right past check.steps
    constructor
    · intro source after' member
      rw [more] at member
      rcases List.mem_append.mp member with member | member
      · exact (calm.warranted source after' member).mono before
      · obtain ⟨rfl, rfl⟩ := Prod.mk.inj (List.mem_singleton.mp member)
        exact warranted.mono after
    · intro contract after' member
      rw [more] at member
      rcases List.mem_append.mp member with member | member
      · exact funded_mono before (calm.foundFunded contract after' member)
      · obtain ⟨same, _⟩ := Prod.mk.inj (List.mem_singleton.mp member)
        have stored := run.stored
        rw [← same] at warranted stored
        cases warranted with
        | confirm reported enough =>
            obtain ⟨store, _, asked⟩ := reported
            obtain rfl := run.before _ asked
            exact funded_mono after (mem_funded asked enough stored)
    · intro unhurried
      have distinct := calm.once (unhurried.subset before)
      rw [more, List.map_append, List.map_singleton, List.nodup_append]
      refine ⟨distinct, List.nodup_singleton _, ?_⟩
      rintro _ member _ last rfl
      obtain ⟨⟨source, middle⟩, member, same⟩ := List.mem_map.mp member
      rw [List.mem_singleton.mp last] at same
      -- the earlier move is the last one before this check, so the check found its result
      obtain ⟨front, back, split, others⟩ := split_of_nodup distinct member
      have found := progress.latest front source middle back split others
      rw [show source.getId = check.source.getId from same, run.stored] at found
      obtain rfl := Option.some.inj found
      exact hurried_of_warranted_twice (calm.warranted _ _ member) warranted
        (fun contract signed => calm.foundFunded contract _ (signed ▸ member)) unhurried

/-- An unhurried periodic check moves no contract twice, and none from confirmed to
closed. -/
theorem Unhurried.moves_once {manager : Manager} {start final : ContractStore}
    {steps : List WalletStep} {result : Except DlcError (List Report)}
    (unhurried : Unhurried steps)
    (run : Runs (World False) (periodicCheck manager).run start steps result final) :
    ((transitions steps).map fun move => move.1.getId).Nodup ∧
      ∀ contract closed,
        (DlcContract.confirmed contract, .closed closed) ∉ transitions steps := by
  have kept : Progress start ([] ++ steps) final ∧ Calm manager ([] ++ steps) := by
    refine (runs_periodicCheck run).invariant
      (fun past store => Progress start past store ∧ Calm manager past) ?_ ?_ (by decide)
      ⟨progress_refl start, calm_nil manager⟩
    · intro past store listing answer asks holds
      have silent : ∀ step ∈ [(⟨store, listing, answer, store⟩ : WalletStep)],
          step.request.isWrite = false := by
        intro step member
        obtain rfl := List.mem_singleton.mp member
        exact (WalletRequest.isListing_reads asks).1
      exact ⟨holds.1.read silent, holds.2.still (transitions_of_reads silent)⟩
    · intro past check before after holds run
      exact ⟨holds.1.check run, holds.2.check holds.1 run⟩
  rw [List.nil_append] at kept
  refine ⟨kept.2.once unhurried, fun contract closed member => ?_⟩
  exact hurried_of_closed (kept.2.warranted _ _ member) unhurried

end LinkManager

end DlcStack
