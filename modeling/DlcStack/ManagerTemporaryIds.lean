import DlcStack.ManagerLifecycle

/-!
# One record for each offer

An offer that is accepted leaves its temporary identifier for a final one, where
`on_offer_message` does not look for it.  As long as no offer arrives again after
that, no two records ever have the same temporary identifier.
-/

namespace DlcStack

namespace LinkManager

open Program

/-- Records with one temporary identifier are the same record. -/
def OneRecordEach (store : ContractStore) : Prop :=
  ∀ first ∈ store.rows, ∀ second ∈ store.rows,
    first.getTemporaryId = second.getTemporaryId → first = second

instance (store : ContractStore) : Decidable (OneRecordEach store) :=
  inferInstanceAs (Decidable (∀ first ∈ store.rows, ∀ second ∈ store.rows,
    first.getTemporaryId = second.getTemporaryId → first = second))

/-- A transition keeps the temporary identifier. -/
theorem Follows.sameTemporary {manager : Manager} {steps : List WalletStep}
    {source target : DlcContract} (follows : Follows manager steps source target) :
    target.getTemporaryId = source.getTemporaryId := by
  cases follows with
  | checked warranted => exact warranted.ids.2.1
  | _ => rfl

/-- The records after a replacement. -/
theorem Replaces.mem_rows {before after : ContractStore} {source target other : DlcContract}
    (replaces : Replaces before source target after) (member : other ∈ after.rows) :
    other = target ∨ other ∈ before.rows ∧ other.getId ≠ source.getId := by
  have found := UniqueTable.mem_rows_iff.mp member
  rw [replaces.effect] at found
  split_ifs at found with isTarget isSource
  · exact .inl (Option.some.inj found).symm
  · exact .inr ⟨UniqueTable.mem_rows_iff.mpr found, isSource⟩

theorem OneRecordEach.replace {before after : ContractStore} {source target : DlcContract}
    (one : OneRecordEach before) (replaces : Replaces before source target after)
    (sameTemporary : target.getTemporaryId = source.getTemporaryId) :
    OneRecordEach after := by
  have stored : source ∈ before.rows := UniqueTable.mem_rows_iff.mpr replaces.stored
  intro first firstMember second secondMember same
  rcases replaces.mem_rows firstMember with rfl | ⟨firstMember, firstOther⟩ <;>
    rcases replaces.mem_rows secondMember with rfl | ⟨secondMember, secondOther⟩
  · rfl
  · rw [sameTemporary] at same
    exact absurd (congrArg DlcContract.getId (one source stored second secondMember same))
      (Ne.symm secondOther)
  · rw [sameTemporary] at same
    exact absurd (congrArg DlcContract.getId (one first firstMember source stored same))
      firstOther
  · exact one first firstMember second secondMember same

theorem OneRecordEach.create {before after : ContractStore} {offer : OfferedContract}
    (one : OneRecordEach before)
    (new : ∀ contract ∈ before.rows, contract.getTemporaryId ≠ offer.id)
    (adds : ∀ id, after.find? id =
      if id = offer.id then some (.offered offer) else before.find? id) :
    OneRecordEach after := by
  have added {contract : DlcContract} (member : contract ∈ after.rows) :
      contract = .offered offer ∨ contract ∈ before.rows := by
    have found := UniqueTable.mem_rows_iff.mp member
    rw [adds] at found
    split_ifs at found
    · exact .inl (Option.some.inj found).symm
    · exact .inr (UniqueTable.mem_rows_iff.mpr found)
  intro first firstMember second secondMember same
  rcases added firstMember with rfl | firstMember <;>
    rcases added secondMember with rfl | secondMember
  · rfl
  · exact absurd same.symm (new second secondMember)
  · exact absurd same (new first firstMember)
  · exact one first firstMember second secondMember same

/-- An offer that a step adds is the one that it was asked to create. -/
theorem request_of_offers {before after : ContractStore} {request : WalletRequest}
    {answer : request.Answer} {offer : OfferedContract}
    (served : World False before request answer after)
    (free : before.find? offer.id = none)
    (added : after.find? offer.id = some (.offered offer)) :
    request = .createContract offer := by
  have changed : after ≠ before := by
    rintro rfl
    rw [free] at added
    cases added
  cases request with
  | createContract contract =>
      rcases served with ⟨_, effect⟩ | ⟨_, rfl | ⟨none, _⟩⟩
      · rw [ContractStore.find?_createContract effect] at added
        split_ifs at added
        · cases added
          rfl
        · rw [free] at added
          cases added
      · exact absurd rfl changed
      · exact none.elim
  | updateContract contract =>
      rcases served with ⟨_, effect⟩ | ⟨_, rfl | ⟨none, _⟩⟩
      · rw [ContractStore.find?_updateContract effect] at added
        split_ifs at added with same
        · cases added
          obtain ⟨old, found⟩ := ContractStore.exists_of_updateContract rfl effect
          rw [show (DlcContract.offered offer).getId = offer.id from rfl, free] at found
          cases found
        · rw [free] at added
          cases added
      · exact absurd rfl changed
      · exact none.elim
  | _ => exact absurd (served.unchanged rfl) changed

/-- A lawful step that stores only a new offer. -/
theorem Lawful.oneRecordEach {manager : Manager} {past : List WalletStep}
    {step : WalletStep} (lawful : Lawful manager past step)
    (served : World False step.before step.request step.answer step.after)
    (new : offerIsNew step = true) (one : OneRecordEach step.before) :
    OneRecordEach step.after := by
  cases lawful with
  | unchanged same =>
      rw [same]
      exact one
  | @offers offer free adds =>
      have asked := request_of_offers served free (by rw [adds, if_pos rfl])
      simp only [offerIsNew, asked, List.all_eq_true, decide_eq_true_eq] at new
      exact one.create new adds
  | moves follows replaces => exact one.replace replaces follows.sameTemporary

/-- Linked lawful steps. -/
theorem oneRecordEach_of_linked {manager : Manager} {start final : ContractStore}
    {steps : List WalletStep} (linked : Linked (World False) start steps final)
    (lawful : EachStep (Lawful manager) steps)
    (new : ∀ step ∈ steps, offerIsNew step = true) (one : OneRecordEach start) :
    OneRecordEach final ∧ ∀ step ∈ steps, OneRecordEach step.after := by
  induction steps using List.reverseRecOn generalizing final with
  | nil =>
      obtain rfl := linked
      exact ⟨one, by simp⟩
  | append_singleton earlier step ih =>
      obtain ⟨middle, linkedEarlier, last⟩ := linked_append.mp linked
      obtain ⟨rfl, served, rfl⟩ := linked_singleton.mp last
      obtain ⟨lawfulEarlier, lawfulStep⟩ := eachStep_snoc.mp lawful
      obtain ⟨before, each⟩ := ih linkedEarlier lawfulEarlier
        fun other member => new other (List.mem_append_left _ member)
      have after := lawfulStep.oneRecordEach served (new step (by simp)) before
      refine ⟨after, fun other member => ?_⟩
      rcases List.mem_append.mp member with member | member
      · exact each other member
      · obtain rfl := List.mem_singleton.mp member
        exact after

/-- In every run of operations that stores new offers only, there is never more than
one record with the same temporary identifier. -/
theorem operations_oneRecordEach {manager : Manager} {final : ContractStore}
    {sessions : List (Session Operation ContractStore WalletRequest WalletRequest.Answer
      (Except DlcError Outcome))}
    (runs : RunsEach (World False) (fun operation => (operation.run manager).run)
      UniqueTable.empty sessions final)
    (new : ∀ session ∈ sessions, ∀ step ∈ session.steps, offerIsNew step = true) :
    OneRecordEach final ∧
      ∀ session ∈ sessions, ∀ step ∈ session.steps, OneRecordEach step.after := by
  have kept := runs.each (fun store => NoClash store ∧ OneRecordEach store)
    (fun session => ∀ step ∈ session.steps, offerIsNew step = true)
    (fun session => ∀ step ∈ session.steps, OneRecordEach step.after) ?_ new
    ⟨noClash_empty, by decide⟩
  · exact ⟨kept.1.2, kept.2⟩
  · rintro session state after new ⟨noClash, one⟩ run
    obtain ⟨noClash, lawful⟩ := lawful_operation new noClash run
    obtain ⟨one, each⟩ := oneRecordEach_of_linked run.linked lawful new one
    exact ⟨⟨noClash, one⟩, each⟩

theorem operations_oneRecordEach_sampleAgreement :
    ∃ final, RunsEach (World False)
        (fun operation : Operation => (operation.run sampleManager).run) UniqueTable.empty
        (sampleOperations sampleAgreement) final ∧
      OneRecordEach final ∧
      ∀ session ∈ sampleOperations sampleAgreement, ∀ step ∈ session.steps,
        OneRecordEach step.after := by
  obtain ⟨final, runs⟩ := runs_sampleOperations sampleAgreement
  exact ⟨final, runs, operations_oneRecordEach runs (by decide)⟩

/-- The offer is accepted and arrives again. -/
def sampleRedelivery : List Operation :=
  [sampleOfferMessage, .acceptContractOffer (.replicate 32 97), sampleOfferMessage]

/-- The offer is stored a second time, next to the accepted contract. -/
theorem operations_not_oneRecordEach :
    ∃ final, RunsEach (World False)
        (fun operation : Operation => (operation.run sampleManager).run) UniqueTable.empty
        (sampleOperations sampleRedelivery) final ∧
      ¬ ∀ session ∈ sampleOperations sampleRedelivery, ∀ step ∈ session.steps,
        OneRecordEach step.after := by
  obtain ⟨final, runs⟩ := runs_sampleOperations sampleRedelivery
  exact ⟨final, runs, by decide⟩

end LinkManager

end DlcStack
