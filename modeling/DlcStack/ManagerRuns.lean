import DlcStack.EffectSessions
import DlcStack.ManagerCheckTraces

/-!
# Runs of the periodic check

A periodic check that runs alone is a sequence of phases: each asks for the
contracts in one state and checks them one after the other.  Every contract is
still stored as it was listed when its check begins, so the update that ends
the check is a warranted transition of the record it finds.
-/

namespace DlcStack

/-- The contract as it was accepted, while the manager still watches it. -/
def DlcContract.acceptedContract? : DlcContract → Option AcceptedContract
  | .signed contract => some contract.acceptedContract
  | .confirmed contract => some contract.acceptedContract
  | .preClosed contract => some contract.signedContract.acceptedContract
  | _ => none

/-- The offer under a contract; a closed one does not keep it. -/
def DlcContract.offer? : DlcContract → Option OfferedContract
  | .offered contract => some contract
  | .rejected contract => some contract
  | .failedAccept contract => some contract.offeredContract
  | .accepted contract => some contract.offeredContract
  | .failedSign contract => some contract.acceptedContract.offeredContract
  | .signed contract => some contract.acceptedContract.offeredContract
  | .confirmed contract => some contract.acceptedContract.offeredContract
  | .refunded contract => some contract.acceptedContract.offeredContract
  | .preClosed contract =>
      some contract.signedContract.acceptedContract.offeredContract
  | .closed _ => none

/-- The event under which a contract is reported. -/
def DlcContract.eventId? (contract : DlcContract) : Option String :=
  contract.offer?.bind OfferedContract.eventId?

namespace LinkManager

open Program

/-! ## One check -/

/-- A completed check of one contract. -/
structure Check where
  source : DlcContract
  steps : List WalletStep
  result : Except DlcError Bool

/-- The check runs alone, on a contract that is stored. -/
structure CheckRun (repliesLost : Prop) (manager : Manager) (check : Check)
    (start final : ContractStore) : Prop where
  stored : start.find? check.source.getId = some check.source
  trace : CheckTrace manager check.source check.steps check.result
  linked : Linked (World repliesLost) start check.steps final

theorem Publishes.requests {contract : SignedContract} {target : DlcContract}
    {steps : List WalletStep} {answer : Except DlcError Unit}
    (publishes : Publishes contract target steps answer) :
    ∀ step ∈ steps, step.request.isWrite = false ∧ step.request.isListing = false ∧
      step.request.isPost = false := by
  obtain ⟨inquiries, ends, records⟩ := publishes
  intro step member
  rcases List.mem_append.mp member with member | member
  · exact WalletRequest.isInquiry_reads (inquiries step member)
  · obtain rfl := List.mem_singleton.mp member
    exact ⟨rfl, rfl, rfl⟩

/-- Up to its update a check neither writes nor lists contracts, and it notifies
nobody. -/
theorem Prepares.requests {source target : DlcContract} {steps : List WalletStep}
    (prepares : Prepares source target steps) :
    ∀ step ∈ steps, step.request.isWrite = false ∧ step.request.isListing = false ∧
      step.request.isPost = false := by
  cases prepares with
  | inquired inquiries =>
      exact fun step member => WalletRequest.isInquiry_reads (inquiries step member)
  | published _ publishes => exact publishes.requests

theorem linked_reads {repliesLost : Prop} {steps : List WalletStep}
    {start final : ContractStore}
    (linked : Linked (World repliesLost) start steps final)
    (reads : ∀ step ∈ steps, step.request.isWrite = false) :
    final = start :=
  (linked.unchanged fun step member served => served.unchanged (reads step member)).1

/-- A check changes nothing, or ends with one update of the record that it was
made for. -/
theorem CheckRun.outcome {repliesLost : Prop} {manager : Manager} {check : Check}
    {start final : ContractStore}
    (run : CheckRun repliesLost manager check start final) :
    (final = start ∧ check.result ≠ .ok true ∧
      (Inquiries check.steps ∨ ∃ contract target error,
        check.source = .confirmed contract ∧
          Publishes contract target check.steps (.error error))) ∨
    ∃ front target answer,
      check.steps = front ++ [⟨start, .updateContract target, answer, final⟩] ∧
        Prepares check.source target front ∧
        Warranted manager front check.source target ∧
        Writes repliesLost start (start.updateContract target) answer final ∧
        check.result = answer.map fun _ => target.refunded?.isNone := by
  obtain ⟨source, steps, result⟩ := check
  obtain ⟨stored, trace, linked⟩ := run
  dsimp only at stored trace linked ⊢
  cases trace with
  | inquired inquiries still =>
      have same := linked_reads linked fun step member =>
        (WalletRequest.isInquiry_reads (inquiries step member)).1
      exact .inl ⟨same, still, .inl inquiries⟩
  | @unpublished _ contract target error confirmed publishes =>
      have same := linked_reads linked fun step member =>
        (publishes.requests step member).1
      exact .inl ⟨same, by simp, .inr ⟨contract, target, error, confirmed, publishes⟩⟩
  | @wrote front target before after answer prepares warranted =>
      obtain ⟨middle, first, last⟩ := linked_append.mp linked
      obtain rfl := linked_reads first fun step member =>
        (prepares.requests step member).1
      obtain ⟨rfl, written, rfl⟩ := linked_singleton.mp last
      exact .inr ⟨front, target, answer, rfl, prepares, warranted, written, rfl⟩

/-- A check that writes nothing makes no request for contracts either. -/
theorem idle_requests {check : Check}
    (idle : Inquiries check.steps ∨ ∃ contract target error,
      check.source = .confirmed contract ∧
        Publishes contract target check.steps (.error error)) :
    ∀ step ∈ check.steps, step.request.isWrite = false ∧
      step.request.isListing = false ∧ step.request.isPost = false := by
  rcases idle with inquiries | ⟨_, _, _, _, publishes⟩
  · exact fun step member => WalletRequest.isInquiry_reads (inquiries step member)
  · exact publishes.requests

/-- The records that a warranted update leaves. -/
theorem find?_of_warranted {manager : Manager} {steps : List WalletStep}
    {store after : ContractStore} {source target : DlcContract}
    (warranted : Warranted manager steps source target)
    (updated : store.updateContract target = some after) (id : ContractId) :
    after.find? id = if id = source.getId then some target else store.find? id := by
  obtain ⟨sameId, _, stays⟩ := warranted.ids
  rw [ContractStore.find?_updateContract updated, sameId, stays]
  simp

/-- A check changes no record but that of its contract. -/
theorem CheckRun.frame {repliesLost : Prop} {manager : Manager} {check : Check}
    {start final : ContractStore}
    (run : CheckRun repliesLost manager check start final) {id : ContractId}
    (other : id ≠ check.source.getId) : final.find? id = start.find? id := by
  rcases run.outcome with ⟨rfl, _⟩ | ⟨_, target, _, _, _, warranted, written, _⟩
  · rfl
  · rcases written with ⟨_, effect⟩ | ⟨_, rfl | ⟨_, effect⟩⟩
    · rw [find?_of_warranted warranted effect, if_neg other]
    · rfl
    · rw [find?_of_warranted warranted effect, if_neg other]

/-! ## Loops -/

/-- Checks made one after the other. -/
def ChecksRun (repliesLost : Prop) (manager : Manager) :
    ContractStore → List Check → ContractStore → Prop
  | start, [], final => final = start
  | start, check :: rest, final =>
      ∃ middle, CheckRun repliesLost manager check start middle ∧
        ChecksRun repliesLost manager middle rest final

/-- What a loop that made these checks returns. -/
def reports : List Check → Except DlcError (List Report)
  | [] => .ok []
  | check :: rest =>
      match check.result with
      | .ok true =>
          match check.source.eventId? with
          | some eventId =>
              (reports rest).map fun later => (check.source.getId, eventId) :: later
          | none => .error (.invalidState "Missing oracle event ID")
      | _ => reports rest

theorem eventId?_of_accepted {contract : DlcContract} {accepted : AcceptedContract}
    (watched : contract.acceptedContract? = some accepted) :
    contract.getId = accepted.contractId ∧
      contract.eventId? = accepted.offeredContract.eventId? := by
  cases contract <;> first
    | cases watched; exact ⟨rfl, rfl⟩
    | cases watched

/-- A loop over contracts that are stored makes checks of them one after the
other, and returns what they report. -/
theorem runs_checkEach {repliesLost : Prop} {manager : Manager} {γ : Type}
    {check : γ → ManagerM Bool} {accepted : γ → AcceptedContract}
    {variant : γ → DlcContract}
    (watched : ∀ contract,
      (variant contract).acceptedContract? = some (accepted contract))
    (traced : ∀ contract store,
      Always (World repliesLost) (fun _ _ => True)
        (Orderly manager (variant contract))
        (fun past result _ => CheckTrace manager (variant contract) past result)
        [] store (check contract).run)
    {contracts : List γ} {start final : ContractStore} {steps : List WalletStep}
    {result : Except DlcError (List Report)}
    (stored : ∀ contract ∈ contracts,
      start.find? (variant contract).getId = some (variant contract))
    (distinct : (contracts.map fun contract => (variant contract).getId).Nodup)
    (run : Runs (World repliesLost) (checkEach check accepted contracts).run start
      steps result final) :
    ∃ checks, ChecksRun repliesLost manager start checks final ∧
      steps = checks.flatMap (·.steps) ∧ result = reports checks := by
  induction contracts generalizing start steps result with
  | nil =>
      obtain ⟨rfl, rfl, rfl⟩ := run
      exact ⟨[], rfl, rfl, rfl⟩
  | cons contract rest ih =>
      rw [List.map_cons, List.nodup_cons] at distinct
      obtain ⟨moved, middle, front, back, first, second, rfl⟩ :=
        (runs_run_lift_bind _ _).mp run
      have checked : CheckRun repliesLost manager
          ⟨variant contract, front, moved⟩ start middle := by
        refine ⟨stored contract (by simp), ?_, first.linked⟩
        simpa using (((traced contract start).rely_mono
          fun _ _ _ => trivial).of_runs first).2
      have storedLater : ∀ other ∈ rest,
          middle.find? (variant other).getId = some (variant other) := by
        intro other member
        rw [checked.frame fun same => distinct.1
          (List.mem_map.mpr ⟨other, member, same⟩)]
        exact stored other (List.mem_cons_of_mem _ member)
      obtain ⟨sameId, sameEvent⟩ := eventId?_of_accepted (watched contract)
      have skipped (notMoved : moved ≠ .ok true)
          (later : Runs (World repliesLost) (checkEach check accepted rest).run
            middle back result final) :
          ∃ checks, ChecksRun repliesLost manager start checks final ∧
            front ++ back = checks.flatMap (·.steps) ∧ result = reports checks := by
        obtain ⟨checks, runs, rfl, rfl⟩ := ih storedLater distinct.2 later
        refine ⟨⟨variant contract, front, moved⟩ :: checks,
          ⟨middle, checked, runs⟩, by simp, ?_⟩
        cases moved with
        | error error => rfl
        | ok moved =>
            cases moved with
            | true => exact absurd rfl notMoved
            | false => rfl
      cases moved with
      | error error => exact skipped (by simp) second
      | ok moved =>
          cases moved with
          | false => exact skipped (by simp) second
          | true =>
              dsimp only at second
              cases event : (accepted contract).offeredContract.eventId? with
              | none =>
                  rw [event] at second
                  obtain ⟨rfl, rfl, rfl⟩ := second
                  refine ⟨[⟨variant contract, front, .ok true⟩],
                    ⟨final, checked, rfl⟩, by simp, ?_⟩
                  simp [reports, sameEvent, event]
              | some eventId =>
                  rw [event] at second
                  have report (checks : List Check) :
                      reports (⟨variant contract, front, .ok true⟩ :: checks) =
                        (reports checks).map fun later =>
                          ((accepted contract).contractId, eventId) :: later := by
                    simp only [reports, sameEvent, event, sameId]
                  rcases runs_run_bind _ _ second with
                    ⟨error, failed, rfl⟩ | ⟨later, last, inner, tail, ended, returned, rfl⟩
                  · obtain ⟨checks, runs, rfl, failure⟩ :=
                      ih storedLater distinct.2 failed
                    refine ⟨_ :: checks, ⟨middle, checked, runs⟩, by simp, ?_⟩
                    rw [report, ← failure]
                    rfl
                  · obtain ⟨rfl, rfl, rfl⟩ := returned
                    obtain ⟨checks, runs, rfl, success⟩ :=
                      ih storedLater distinct.2 ended
                    refine ⟨_ :: checks, ⟨middle, checked, runs⟩, by simp, ?_⟩
                    rw [report, ← success]
                    rfl

/-! ## Phases -/

/-- One phase: the request for the contracts in a state, and their checks. -/
inductive PhaseRun (repliesLost : Prop) (manager : Manager) (listing : WalletRequest) :
    ContractStore → List WalletStep → Except DlcError (List Report) →
    ContractStore → Prop
  | unread {store : ContractStore} {error : DlcError} :
      PhaseRun repliesLost manager listing store
        [⟨store, listing, .error error, store⟩] (.error error) store
  | checked {start final : ContractStore} {contracts : listing.Reply}
      {checks : List Check}
      (runs : ChecksRun repliesLost manager start checks final) :
      PhaseRun repliesLost manager listing start
        (⟨start, listing, .ok contracts, start⟩ :: checks.flatMap (·.steps))
        (reports checks) final

/-- Phases one after the other, until the first that fails. -/
inductive PhasesRun (repliesLost : Prop) (manager : Manager) :
    List WalletRequest → ContractStore → List WalletStep →
    Except DlcError (List Report) → ContractStore → Prop
  | done {store : ContractStore} :
      PhasesRun repliesLost manager [] store [] (.ok []) store
  | stopped {listing : WalletRequest} {rest : List WalletRequest}
      {start final : ContractStore} {steps : List WalletStep} {error : DlcError}
      (phase : PhaseRun repliesLost manager listing start steps (.error error) final) :
      PhasesRun repliesLost manager (listing :: rest) start steps (.error error) final
  | continued {listing : WalletRequest} {rest : List WalletRequest}
      {start middle final : ContractStore} {front back : List WalletStep}
      {found : List Report} {result : Except DlcError (List Report)}
      (phase : PhaseRun repliesLost manager listing start front (.ok found) middle)
      (later : PhasesRun repliesLost manager rest middle back result final) :
      PhasesRun repliesLost manager (listing :: rest) start (front ++ back)
        (result.map (found ++ ·)) final

theorem PhasesRun.failed {repliesLost : Prop} {manager : Manager}
    {listing : WalletRequest} {rest : List WalletRequest}
    {start middle final : ContractStore} {front back : List WalletStep}
    {found : List Report} {error : DlcError}
    (phase : PhaseRun repliesLost manager listing start front (.ok found) middle)
    (later : PhasesRun repliesLost manager rest middle back (.error error) final) :
    PhasesRun repliesLost manager (listing :: rest) start (front ++ back)
      (.error error) final :=
  .continued phase later

/-- The requests with which the phases of a periodic check begin. -/
def listings : List WalletRequest :=
  [.getSignedContracts, .getConfirmedContracts, .getPreclosedContracts]

/-- Listed contracts are stored, under different identifiers. -/
theorem stored_of_lists {γ : Type} {store : ContractStore}
    {variant? : DlcContract → Option γ} {variant : γ → DlcContract}
    (inverse : ∀ contract value, variant? contract = some value →
      contract = variant value)
    {contracts listed : List γ} (lists : ContractStore.Lists store variant? listed)
    (sublist : contracts.Sublist listed) :
    (∀ contract ∈ contracts,
      store.find? (variant contract).getId = some (variant contract)) ∧
    (contracts.map fun contract => (variant contract).getId).Nodup := by
  have rows : (store.rows.filterMap variant?).map variant =
      store.rows.filter fun row => (variant? row).isSome := by
    generalize store.rows = rows
    induction rows with
    | nil => rfl
    | cons row rows ih =>
        cases found : variant? row with
        | none => simp [found, ih]
        | some value =>
            rw [List.filterMap_cons_some found, List.map_cons, ih,
              List.filter_cons_of_pos (by simp [found]), ← inverse row value found]
  constructor
  · intro contract member
    have listed := lists.subset (sublist.subset member)
    refine UniqueTable.mem_rows_iff.mp (List.mem_of_mem_filter (?_ :
      variant contract ∈ store.rows.filter fun row => (variant? row).isSome))
    rw [← rows]
    exact List.mem_map_of_mem listed
  · have ids : (((store.rows.filterMap variant?).map variant).map
        DlcContract.getId).Nodup := by
      rw [rows]
      exact store.unique.sublist (List.filter_sublist.map _)
    rw [List.map_map] at ids
    exact ((lists.map _).nodup_iff.mpr ids).sublist (sublist.map _)

/-- A phase as the source writes it. -/
theorem runs_phase {repliesLost : Prop} {manager : Manager} {γ : Type}
    {check : γ → ManagerM Bool} {accepted : γ → AcceptedContract}
    (listing : WalletRequest) (select : listing.Reply → List γ)
    (variant? : DlcContract → Option γ) (variant : γ → DlcContract)
    (inverse : ∀ contract value, variant? contract = some value →
      contract = variant value)
    (watched : ∀ contract,
      (variant contract).acceptedContract? = some (accepted contract))
    (traced : ∀ contract store,
      Always (World repliesLost) (fun _ _ => True)
        (Orderly manager (variant contract))
        (fun past result _ => CheckTrace manager (variant contract) past result)
        [] store (check contract).run)
    (lists : ∀ store reply after,
      World repliesLost store listing (.ok reply) after →
        ∃ listed, ContractStore.Lists store variant? listed ∧
          (select reply).Sublist listed)
    (reads : listing.isWrite = false)
    {start final : ContractStore} {steps : List WalletStep}
    {result : Except DlcError (List Report)}
    (run : Runs (World repliesLost)
      (do let contracts ← ask listing
          checkEach check accepted (select contracts) : ManagerM (List Report)).run
      start steps result final) :
    PhaseRun repliesLost manager listing start steps result final := by
  obtain ⟨answer, middle, later, served, rfl, run⟩ := run
  obtain rfl := served.unchanged reads
  cases answer with
  | error error =>
      obtain ⟨rfl, rfl, rfl⟩ := run
      exact .unread
  | ok reply =>
      obtain ⟨listed, holds, sublist⟩ := lists _ reply _ served
      obtain ⟨stored, distinct⟩ := stored_of_lists inverse holds sublist
      obtain ⟨checks, runs, rfl, rfl⟩ :=
        runs_checkEach watched traced stored distinct run
      exact .checked runs

/-- A periodic check that runs alone is a sequence of phases. -/
theorem runs_periodicCheck {repliesLost : Prop} {manager : Manager}
    {start final : ContractStore} {steps : List WalletStep}
    {result : Except DlcError (List Report)}
    (run : Runs (World repliesLost) (periodicCheck manager).run start steps result
      final) :
    PhasesRun repliesLost manager listings start steps result final := by
  have signed {start final steps result}
      (run : Runs (World repliesLost) checkSignedContracts.run start steps result
        final) :
      PhaseRun repliesLost manager .getSignedContracts start steps result final :=
    runs_phase .getSignedContracts id DlcContract.signed? .signed
      (by rintro (_ | _ | _ | _ | _ | _ | _ | _ | _ | _) _ ⟨⟩; rfl)
      (fun _ => rfl) (always_checkSignedContract manager)
      (fun _ reply _ served => ⟨reply, served.2 reply rfl, .refl _⟩) rfl run
  have confirmed {start final steps result}
      (run : Runs (World repliesLost) (checkConfirmedContracts manager).run start
        steps result final) :
      PhaseRun repliesLost manager .getConfirmedContracts start steps result final :=
    runs_phase .getConfirmedContracts
      (List.filter fun contract => contract.channelId.isNone)
      DlcContract.confirmed? .confirmed
      (by rintro (_ | _ | _ | _ | _ | _ | _ | _ | _ | _) _ ⟨⟩; rfl)
      (fun _ => rfl) (always_checkConfirmedContract manager)
      (fun _ reply _ served => ⟨reply, served.2 reply rfl, List.filter_sublist⟩) rfl
      run
  have preClosed {start final steps result}
      (run : Runs (World repliesLost) (checkPreclosedContracts manager).run start
        steps result final) :
      PhaseRun repliesLost manager .getPreclosedContracts start steps result final :=
    runs_phase .getPreclosedContracts id DlcContract.preClosed? .preClosed
      (by rintro (_ | _ | _ | _ | _ | _ | _ | _ | _ | _) _ ⟨⟩; rfl)
      (fun _ => rfl) (always_checkPreclosedContract manager)
      (fun _ reply _ served => ⟨reply, served.2 reply rfl, .refl _⟩) rfl run
  rcases runs_run_bind _ _ run with
    ⟨error, failed, rfl⟩ | ⟨first, _, _, _, ended, later, rfl⟩
  · exact .stopped (signed failed)
  rcases runs_run_bind _ _ later with
    ⟨error, failed, rfl⟩ | ⟨second, _, _, _, ended', last, rfl⟩
  · exact .failed (signed ended) (.stopped (confirmed failed))
  rcases runs_run_bind _ _ last with
    ⟨error, failed, rfl⟩ | ⟨third, _, _, _, ended'', returned, rfl⟩
  · exact .failed (signed ended) (.failed (confirmed ended') (.stopped (preClosed failed)))
  obtain ⟨rfl, rfl, rfl⟩ := returned
  have whole := PhasesRun.continued (signed ended)
    (.continued (confirmed ended') (.continued (preClosed ended'') .done))
  simpa [Except.map, listings] using whole

/-- The rule for invariants of phases: listing and each check preserve it. -/
theorem PhasesRun.invariant {repliesLost : Prop} {manager : Manager}
    (invariant : List WalletStep → ContractStore → Prop)
    (listed : ∀ past store listing answer, listing.isListing = true →
      invariant past store → invariant (past ++ [⟨store, listing, answer, store⟩]) store)
    (checked : ∀ past check start final, invariant past start →
      CheckRun repliesLost manager check start final →
        invariant (past ++ check.steps) final)
    {phases : List WalletRequest} {start final : ContractStore}
    {steps : List WalletStep} {result : Except DlcError (List Report)}
    (run : PhasesRun repliesLost manager phases start steps result final)
    (known : ∀ listing ∈ phases, listing.isListing = true) {past : List WalletStep}
    (holds : invariant past start) : invariant (past ++ steps) final := by
  have loop {checks : List Check} {past start final}
      (runs : ChecksRun repliesLost manager start checks final)
      (holds : invariant past start) :
      invariant (past ++ checks.flatMap (·.steps)) final := by
    induction checks generalizing past start with
    | nil =>
        obtain rfl := runs
        simpa using holds
    | cons check rest ih =>
        obtain ⟨middle, run, runs⟩ := runs
        rw [List.flatMap_cons, ← List.append_assoc]
        exact ih runs (checked _ _ _ _ holds run)
  have phase {listing past start steps result final} (asks : listing.isListing = true)
      (run : PhaseRun repliesLost manager listing start steps result final)
      (holds : invariant past start) : invariant (past ++ steps) final := by
    cases run with
    | unread => exact listed _ _ _ _ asks holds
    | checked runs =>
        rw [← List.singleton_append, ← List.append_assoc]
        exact loop runs (listed _ _ _ _ asks holds)
  induction run generalizing past with
  | done => simpa using holds
  | stopped first => exact phase (known _ (by simp)) first holds
  | continued first _ ih =>
      rw [← List.append_assoc]
      exact ih (fun _ member => known _ (List.mem_cons_of_mem _ member))
        (phase (known _ (by simp)) first holds)

end LinkManager

end DlcStack
