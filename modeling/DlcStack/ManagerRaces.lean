import DlcStack.EffectInterleaving
import DlcStack.ManagerRuns

/-!
# Periodic checks at the same time

When periodic checks overlap, each still decides from the record that it has
read and from its own inquiries, but writes over whatever is stored by then.
A write that finds the record as it was read moves it forward; one that does
not may take a contract back.
-/

namespace DlcStack

namespace LinkManager

open Program

/-- The steps have listed the contract in this state. -/
inductive ReadAs (steps : List WalletStep) : DlcContract → Prop
  | signed {contract : SignedContract} {contracts : List SignedContract}
      (reported : Reported steps .getSignedContracts contracts)
      (member : contract ∈ contracts) : ReadAs steps (.signed contract)
  | confirmed {contract : SignedContract} {contracts : List SignedContract}
      (reported : Reported steps .getConfirmedContracts contracts)
      (member : contract ∈ contracts) : ReadAs steps (.confirmed contract)
  | preClosed {contract : PreClosedContract} {contracts : List PreClosedContract}
      (reported : Reported steps .getPreclosedContracts contracts)
      (member : contract ∈ contracts) : ReadAs steps (.preClosed contract)

theorem ReadAs.append {steps : List WalletStep} {contract : DlcContract}
    (read : ReadAs steps contract) (later : List WalletStep) :
    ReadAs (steps ++ later) contract := by
  cases read with
  | signed reported member => exact .signed (reported.append later) member
  | confirmed reported member => exact .confirmed (reported.append later) member
  | preClosed reported member => exact .preClosed (reported.append later) member

/-- A write is a warranted update of a contract that was read before it. -/
def Justified (manager : Manager) (past : List WalletStep) (step : WalletStep) :
    Prop :=
  step.request.isWrite = true →
    ∃ source target, step.request = .updateContract target ∧ ReadAs past source ∧
      Warranted manager past source target

section Locally

variable {repliesLost : Prop} {manager : Manager} {past : List WalletStep}
  {store : ContractStore}

/-- A phase writes only what it read and asked for. -/
theorem always_phase {γ : Type} {check : γ → ManagerM Bool}
    {accepted : γ → AcceptedContract} (listing : WalletRequest)
    (select : listing.Reply → List γ) (variant : γ → DlcContract)
    (traced : ∀ contract store,
      Always (World repliesLost) (fun _ _ => True)
        (Orderly manager (variant contract))
        (fun past result _ => CheckTrace manager (variant contract) past result)
        [] store (check contract).run)
    (reads : listing.isWrite = false)
    (read : ∀ steps reply, Reported steps listing reply →
      ∀ contract ∈ select reply, ReadAs steps (variant contract)) :
    Always (World repliesLost) (fun _ _ => True) (Justified manager)
      (fun _ _ _ => True) past store
      (do let contracts ← ask listing
          checkEach check accepted (select contracts) : ManagerM (List Report)).run := by
  refine always_ask_bind fun before _ answer after _ => ⟨fun writes => ?_, ?_⟩
  · rw [reads] at writes
    cases writes
  · cases answer with
    | ok reply =>
        refine always_checkEach (fun contract past => ReadAs past (variant contract))
          (fun _ _ own read => read.append own) ?_ (read _ reply (reported_last _ _ _ _ _))
        intro contract past store read
        have checked := (traced contract store).prepend past
        rw [List.append_nil] at checked
        refine checked.mono ?_ fun _ _ _ _ => trivial
        rintro _ step ⟨own, rfl, orderly⟩ writes
        obtain ⟨target, request, warranted⟩ := orderly writes
        exact ⟨variant contract, target, request, read.append own, warranted.prepend past⟩
    | error error => trivial

/-- A periodic check writes only what it read and asked for, whatever happens to
the store meanwhile. -/
theorem always_periodicCheck :
    Always (World repliesLost) (fun _ _ => True) (Justified manager)
      (fun _ _ _ => True) past store (periodicCheck manager).run := by
  have signed {past store} :
      Always (World repliesLost) (fun _ _ => True) (Justified manager)
        (fun _ _ _ => True) past store checkSignedContracts.run :=
    always_phase .getSignedContracts id .signed (always_checkSignedContract manager)
      rfl fun _ _ reported _ member => .signed reported member
  have confirmed {past store} :
      Always (World repliesLost) (fun _ _ => True) (Justified manager)
        (fun _ _ _ => True) past store (checkConfirmedContracts manager).run :=
    always_phase .getConfirmedContracts
      (List.filter fun contract => contract.channelId.isNone) .confirmed
      (always_checkConfirmedContract manager) rfl
      fun _ _ reported _ member => .confirmed reported (List.mem_of_mem_filter member)
  have preClosed {past store} :
      Always (World repliesLost) (fun _ _ => True) (Justified manager)
        (fun _ _ _ => True) past store (checkPreclosedContracts manager).run :=
    always_phase .getPreclosedContracts id .preClosed
      (always_checkPreclosedContract manager) rfl
      fun _ _ reported _ member => .preClosed reported member
  exact always_run_seq signed fun _ _ _ => always_run_seq confirmed fun _ _ _ =>
    always_run_seq preClosed fun _ _ _ => trivial

end Locally

/-! ## What a write does to a record -/

/-- The order in which a contract advances. -/
def rank : DlcContract → Option Nat
  | .signed _ => some 0
  | .confirmed _ => some 1
  | .preClosed _ => some 2
  | .closed _ => some 3
  | _ => none

/-- The states that a contract does not leave. -/
def isFinal : DlcContract → Bool
  | .closed _ => true
  | .refunded _ => true
  | _ => false

/-- The record stays where it is, or moves on. -/
def MovesForward (before after : DlcContract) : Prop :=
  (isFinal before = true → before.getContractStateStr = after.getContractStateStr) ∧
    ∀ first second, rank before = some first → rank after = some second → first ≤ second

/-- A warranted update moves the record that it was decided for forward. -/
theorem movesForward_of_warranted {manager : Manager} {steps : List WalletStep}
    {source target : DlcContract}
    (warranted : Warranted manager steps source target) :
    MovesForward source target := by
  cases warranted <;> simp [MovesForward, isFinal, rank]

/-- The contract that replaces a record was decided from the record as the same
check read it, and from what it asked for since.  It is not Signed, and a record
that is still as it was read moves forward. -/
def DecidedFrom (manager : Manager) (past : List WalletStep)
    (current target : DlcContract) : Prop :=
  ∃ source, source.getId = current.getId ∧ ReadAs past source ∧
    Warranted manager past source target ∧ target.signed? = none ∧
    (current = source → MovesForward current target)

theorem signed?_of_warranted {manager : Manager} {steps : List WalletStep}
    {source target : DlcContract}
    (warranted : Warranted manager steps source target) : target.signed? = none := by
  cases warranted <;> rfl

/-- Along any interleaving of periodic checks, a step leaves a record alone or
replaces it by what its own check decided. -/
theorem interleaved_decidedFrom {ι : Type} [DecidableEq ι] {repliesLost : Prop}
    (managers : ι → Manager) {start final : ContractStore}
    {pool : Pool ι ContractStore WalletRequest WalletRequest.Answer
      (Except DlcError (List Report))}
    {trace front back : List (ι × WalletStep)}
    (run : Interleaved (World repliesLost) AnyStep
      (fun index => Thread.start (periodicCheck (managers index)).run) start trace
      pool final)
    {index : ι} {step : WalletStep} (split : trace = front ++ (index, step) :: back)
    (id : ContractId) :
    step.after.find? id = step.before.find? id ∨
      ∃ current target, step.before.find? id = some current ∧
        step.after.find? id = some target ∧
        DecidedFrom (managers index) (stepsOf index front) current target := by
  obtain ⟨justified, served⟩ := run.step_good
    (fun index state => always_periodicCheck) split
  obtain ⟨before, request, answer, after⟩ := step
  dsimp only at served ⊢
  by_cases writes : request.isWrite = true
  · obtain ⟨source, target, rfl, read, warranted⟩ := justified writes
    have replaced (effect : before.updateContract target = some after) :
        after.find? id = before.find? id ∨
          ∃ current target, before.find? id = some current ∧
            after.find? id = some target ∧
            DecidedFrom (managers index) (stepsOf index front) current target := by
      obtain ⟨sameId, _, stays⟩ := warranted.ids
      by_cases same : id = source.getId
      · obtain ⟨current, found⟩ := ContractStore.exists_of_updateContract stays effect
        have currentId := (UniqueTable.find?_eq_some_iff.mp found).2
        rw [sameId] at found currentId
        refine .inr ⟨current, target, same ▸ found, ?_, source, currentId.symm, read,
          warranted, signed?_of_warranted warranted, ?_⟩
        · rw [find?_of_warranted warranted effect, if_pos same]
        · rintro rfl
          exact movesForward_of_warranted warranted
      · rw [find?_of_warranted warranted effect, if_neg same]
        exact .inl rfl
    rcases served with ⟨_, effect⟩ | ⟨_, rfl | ⟨_, effect⟩⟩
    · exact replaced effect
    · exact .inl rfl
    · exact replaced effect
  · rw [served.unchanged (by simpa using writes)]
    exact .inl rfl

/-! ## Two checks -/

/-- Two periodic checks of a signed contract. -/
def samplePool : Pool Bool ContractStore WalletRequest WalletRequest.Answer
    (Except DlcError (List Report)) :=
  fun _ => Thread.start (periodicCheck sampleManager).run

def sampleTrace (schedule : List Bool) : List (Bool × WalletStep) :=
  samplePool.trace
    (serve (sampleOthers (fun txid => if txid = "fund" then 6 else 0) true 0
      fun _ => false))
    schedule (sampleStore (.signed (sampleSigned (.replicate 32 1) (.replicate 32 2))))

theorem interleaved_sampleTrace (schedule : List Bool) :
    ∃ start pool final, Interleaved (World False) AnyStep
      (fun _ : Bool => Thread.start (periodicCheck sampleManager).run) start
      (sampleTrace schedule) pool final :=
  ⟨_, _, _, interleaved_schedule _ (world_serve False _) schedule
    (metAlong_anyStep ..) .idle⟩

/-- Both checks list the contract as signed; one of them takes it to PreClosed
before the other writes. -/
def sampleSchedule : List Bool :=
  [true, false, true, true, true, true, true, true, true, true, false, false]

/-- The last write of the two checks was decided from an outdated record. -/
theorem interleaved_decidedFrom_sampleTrace :
    ∃ current target,
      ((sampleTrace sampleSchedule).get ⟨11, by decide⟩).2.after.find?
        (.replicate 32 2) = some target ∧
      DecidedFrom sampleManager
        (stepsOf false ((sampleTrace sampleSchedule).take 11)) current target := by
  obtain ⟨start, pool, final, run⟩ := interleaved_sampleTrace sampleSchedule
  have decided := interleaved_decidedFrom (fun _ => sampleManager) run
    (split_get (sampleTrace sampleSchedule) ⟨11, by decide⟩) (.replicate 32 2)
  have changed :
      ((sampleTrace sampleSchedule).get ⟨11, by decide⟩).2.after.find?
        (.replicate 32 2) ≠
      ((sampleTrace sampleSchedule).get ⟨11, by decide⟩).2.before.find?
        (.replicate 32 2) := by decide
  rcases decided with unchanged | ⟨current, target, _, found, decided⟩
  · exact absurd unchanged changed
  · exact ⟨current, target, found, decided⟩

/-- A contract that one check has pre-closed is confirmed again by another. -/
theorem interleaved_moves_back :
    ¬ ∀ (ι : Type) (_ : DecidableEq ι) (managers : ι → Manager)
      (start final : ContractStore)
      (pool : Pool ι ContractStore WalletRequest WalletRequest.Answer
        (Except DlcError (List Report)))
      (trace front back : List (ι × WalletStep)) (index : ι) (step : WalletStep),
      Interleaved (World False) AnyStep
        (fun index => Thread.start (periodicCheck (managers index)).run) start trace
        pool final →
      trace = front ++ (index, step) :: back →
      ∀ id current, step.before.find? id = some current →
        ∃ target, step.after.find? id = some target ∧ MovesForward current target := by
  intro always
  obtain ⟨start, pool, final, run⟩ := interleaved_sampleTrace sampleSchedule
  obtain ⟨target, found, forward⟩ := always Bool inferInstance (fun _ => sampleManager)
    _ _ _ _ _ _ _ _ run (split_get (sampleTrace sampleSchedule) ⟨11, by decide⟩)
    (.replicate 32 2) _ rfl
  cases found
  exact absurd (forward.2 2 1 rfl rfl) (by decide)

end LinkManager

end DlcStack
