import DlcStack.ManagerRuns
import Mathlib.Data.List.Induction

/-!
# One settlement for each contract

A confirmed contract is settled by its CET or by its refund.  Once one of them
was sent and the record of it has taken effect, no later periodic check sends
either; before the record has taken effect nothing prevents it.
-/

namespace DlcStack

namespace LinkManager

open Program

/-- The settlement that a step asks the blockchain to publish, and of which
contract, as the steps before it made the transaction. -/
def settles? (earlier : List WalletStep) (step : WalletStep) :
    Option (Settlement × ContractId) :=
  match step.request, made? earlier with
  | .sendTransaction transaction, some (kind, contract, settlement) =>
      if transaction = settlement then
        some (kind, contract.acceptedContract.contractId)
      else none
  | _, _ => none

/-- The settlement of the contract was sent successfully. -/
def Sent (kind : Settlement) (id : ContractId) (steps : List WalletStep) : Prop :=
  ∃ front send back, steps = front ++ send :: back ∧
    settles? front send = some (kind, id) ∧ failed send = false

/-- The update of the step has taken effect, whatever was answered. -/
def TakesEffect (step : WalletStep) : Prop :=
  ∃ target, step.request = .updateContract target ∧
    step.before.updateContract target = some step.after

/-- The settlement of the contract was sent successfully, and the update right
after it has taken effect. -/
def Recorded (kind : Settlement) (id : ContractId) (steps : List WalletStep) : Prop :=
  ∃ front send record back, steps = front ++ send :: record :: back ∧
    settles? front send = some (kind, id) ∧ failed send = false ∧
    TakesEffect record

theorem recorded_snoc {kind : Settlement} {id : ContractId}
    {steps : List WalletStep} {step : WalletStep}
    (recorded : Recorded kind id (steps ++ [step])) :
    Recorded kind id steps ∨
      TakesEffect step ∧
        ∃ front send, steps = front ++ [send] ∧ settles? front send = some (kind, id) := by
  obtain ⟨front, send, record, back, split, settles, sent, effect⟩ := recorded
  cases back using List.reverseRecOn with
  | nil =>
      have split : steps ++ [step] = (front ++ [send]) ++ [record] := by simpa using split
      obtain ⟨rfl, last⟩ := List.append_inj' split rfl
      obtain rfl := List.singleton_inj.mp last
      exact .inr ⟨effect, front, send, rfl, settles⟩
  | append_singleton back last =>
      have split : steps ++ [step] = (front ++ send :: record :: back) ++ [last] := by
        simpa using split
      obtain ⟨rfl, _⟩ := List.append_inj' split rfl
      exact .inl ⟨front, send, record, back, rfl, settles, sent, effect⟩

/-- The states of a contract that has been settled. -/
def isSettled : DlcContract → Bool
  | .preClosed _ => true
  | .closed _ => true
  | .refunded _ => true
  | _ => false

/-- The step sends no settlement of a contract whose settlement is recorded. -/
def SendsNoSecond (past : List WalletStep) (step : WalletStep) : Prop :=
  ∀ first second id, Recorded first id past → settles? past step ≠ some (second, id)

/-- Contracts whose settlement is recorded are stored as settled, and nothing was
sent for them since. -/
structure SettledOnce (past : List WalletStep) (store : ContractStore) : Prop where
  stored : ∀ kind id, Recorded kind id past →
    ∃ contract, store.find? id = some contract ∧ isSettled contract = true
  once : EachStep SendsNoSecond past

theorem settles?_of_silent {earlier : List WalletStep} {step : WalletStep}
    (silent : step.request.isListing = true ∨ step.request.isInquiry = true) :
    settles? earlier step = none := by
  unfold settles?
  split
  · rename_i request _
    rw [request] at silent
    rcases silent with listing | inquiry
    · cases listing
    · cases inquiry
  · rfl

/-- A step that neither publishes nor writes. -/
theorem SettledOnce.read {past : List WalletStep} {store : ContractStore}
    {step : WalletStep} (settledOnce : SettledOnce past store)
    (silent : step.request.isListing = true ∨ step.request.isInquiry = true) :
    SettledOnce (past ++ [step]) store := by
  refine ⟨fun kind id recorded => ?_, eachStep_snoc.mpr ⟨settledOnce.once, fun _ _ _ _ => ?_⟩⟩
  · rcases recorded_snoc recorded with recorded | ⟨⟨target, request, _⟩, _⟩
    · exact settledOnce.stored kind id recorded
    · rw [request] at silent
      rcases silent with listing | inquiry
      · cases listing
      · cases inquiry
  · simp [settles?_of_silent silent]

/-- Settlement is not undone: what follows a settled or confirmed contract, the
confirmed ones that were published included, is settled. -/
theorem isSettled_of_warranted {manager : Manager} {steps : List WalletStep}
    {source target : DlcContract} (warranted : Warranted manager steps source target)
    (after : isSettled source = true ∨ (source.confirmed?).isSome = true) :
    isSettled target = true := by
  cases warranted <;> simp_all [isSettled, DlcContract.confirmed?]

theorem SettledOnce.inquire {past steps : List WalletStep} {store : ContractStore}
    (settledOnce : SettledOnce past store) (inquiries : Inquiries steps) :
    SettledOnce (past ++ steps) store := by
  induction steps generalizing past with
  | nil => simpa using settledOnce
  | cons step rest ih =>
      have first := settledOnce.read (.inr (inquiries step (by simp)))
      have later := ih first fun other member => inquiries other (List.mem_cons_of_mem _ member)
      simpa using later

/-- The settlement that a check asks to publish is that of its contract. -/
theorem settles?_of_publishes {contract : SignedContract} {target : DlcContract}
    {steps past front : List WalletStep} {answer : Except DlcError Unit}
    {last : WalletStep} (publishes : Publishes contract target steps answer)
    (split : steps = front ++ [last]) {kind : Settlement} {id : ContractId}
    (settles : settles? (past ++ front) last = some (kind, id)) :
    id = contract.acceptedContract.contractId := by
  cases publishes with
  | mk inquiries ends records =>
      obtain ⟨rfl, same⟩ := List.append_inj' split rfl
      obtain rfl := List.singleton_inj.mp same
      simp only [settles?, made?_append ends, if_true, Option.some.injEq,
        Prod.mk.injEq] at settles
      exact settles.2.symm

/-- Publishing for a contract that is stored as confirmed. -/
theorem SettledOnce.publish {past steps : List WalletStep} {store : ContractStore}
    {contract : SignedContract} {target : DlcContract} {answer : Except DlcError Unit}
    (settledOnce : SettledOnce past store)
    (stored : store.find? contract.acceptedContract.contractId = some (.confirmed contract))
    (publishes : Publishes contract target steps answer) :
    SettledOnce (past ++ steps) store := by
  have whole := publishes
  cases publishes with
  | mk inquiries ends records =>
      have asked := settledOnce.inquire inquiries
      rw [← List.append_assoc]
      refine ⟨fun kind id recorded => ?_, eachStep_snoc.mpr ⟨asked.once, ?_⟩⟩
      · rcases recorded_snoc recorded with recorded | ⟨⟨_, request, _⟩, _⟩
        · exact asked.stored kind id recorded
        · cases request
      · intro first second id recorded settles
        obtain rfl := settles?_of_publishes whole rfl settles
        obtain ⟨other, found, settled⟩ := asked.stored first _ recorded
        rw [stored] at found
        obtain rfl := Option.some.inj found
        cases settled

/-- The update that ends a check. -/
theorem SettledOnce.update {past front : List WalletStep} {start final : ContractStore}
    {source target : DlcContract} {manager : Manager} {answer : Except DlcError Unit}
    (settledOnce : SettledOnce (past ++ front) start)
    (stored : start.find? source.getId = some source)
    (prepares : Prepares source target front)
    (warranted : Warranted manager front source target)
    (written : Writes True start (start.updateContract target) answer final) :
    SettledOnce (past ++ (front ++ [⟨start, .updateContract target, answer, final⟩]))
      final := by
  rw [← List.append_assoc]
  refine ⟨fun kind id recorded => ?_, eachStep_snoc.mpr ⟨settledOnce.once, fun _ _ _ _ => ?_⟩⟩
  · rcases recorded_snoc recorded with recorded | ⟨effect, before, send, split, settles⟩
    · obtain ⟨contract, found, settled⟩ := settledOnce.stored kind id recorded
      have kept (effect : start.updateContract target = some final) :
          ∃ contract, final.find? id = some contract ∧ isSettled contract = true := by
        rw [find?_of_warranted warranted effect]
        split_ifs with same
        · rw [same, stored] at found
          obtain rfl := Option.some.inj found
          exact ⟨target, rfl, isSettled_of_warranted warranted (.inl settled)⟩
        · exact ⟨contract, found, settled⟩
      rcases written with ⟨_, effect⟩ | ⟨_, rfl | ⟨_, effect⟩⟩
      · exact kept effect
      · exact ⟨contract, found, settled⟩
      · exact kept effect
    · obtain ⟨inner, rfl⟩ : ∃ inner, front = inner ++ [send] := by
        cases front using List.reverseRecOn with
        | nil => exact absurd rfl warranted.ne_nil
        | append_singleton inner last =>
            rw [← List.append_assoc] at split
            exact ⟨inner, by rw [(List.append_inj' split rfl).2]⟩
      rw [← List.append_assoc] at split
      obtain ⟨rfl, _⟩ := List.append_inj' split rfl
      cases prepares with
      | inquired inquiries =>
          rw [settles?_of_silent (.inr (inquiries send (by simp)))] at settles
          cases settles
      | @published contract confirmed publishes =>
          obtain rfl := settles?_of_publishes publishes rfl settles
          obtain ⟨_, ⟨⟩, effect⟩ := effect
          subst confirmed
          refine ⟨target, ?_, isSettled_of_warranted warranted (.inr rfl)⟩
          rw [find?_of_warranted warranted effect]
          exact if_pos rfl
  · simp [settles?]

/-- A periodic check keeps the invariant. -/
theorem settledOnce_periodicCheck {manager : Manager} {past steps : List WalletStep}
    {start final : ContractStore} {result : Except DlcError (List Report)}
    (settledOnce : SettledOnce past start)
    (run : Runs (World True) (periodicCheck manager).run start steps result final) :
    SettledOnce (past ++ steps) final := by
  refine (runs_periodicCheck run).invariant SettledOnce ?_ ?_ (by decide) settledOnce
  · intro past store listing answer asks settledOnce
    exact settledOnce.read (.inl asks)
  · intro past check start final settledOnce run
    rcases run.outcome with
      ⟨rfl, _, inquiries | ⟨contract, target, error, confirmed, publishes⟩⟩ |
      ⟨front, target, answer, split, prepares, warranted, written, _⟩
    · exact settledOnce.inquire inquiries
    · have stored := run.stored
      rw [confirmed] at stored
      exact settledOnce.publish stored publishes
    · rw [split]
      refine SettledOnce.update ?_ run.stored prepares warranted written
      cases prepares with
      | inquired inquiries => exact settledOnce.inquire inquiries
      | published confirmed publishes =>
          have stored := run.stored
          rw [confirmed] at stored
          exact settledOnce.publish stored publishes

/-- Over any number of periodic checks, a contract whose settlement was sent and
recorded is not settled again, whatever else fails. -/
theorem periodicChecks_settle_once {manager : Manager} {start final : ContractStore}
    {sessions : List (Session Unit ContractStore WalletRequest WalletRequest.Answer
      (Except DlcError (List Report)))}
    (runs : RunsEach (World True) (fun _ : Unit => (periodicCheck manager).run) start
      sessions final) :
    EachStep SendsNoSecond (sessions.flatMap (·.steps)) := by
  have initially : SettledOnce [] start := by
    refine ⟨?_, eachStep_nil⟩
    rintro _ _ ⟨_, _, _, _, split, _⟩
    simp at split
  have kept := runs.history_invariant SettledOnce (fun _ => True)
    (fun _ _ _ _ _ holds run => settledOnce_periodicCheck holds run)
    (fun _ _ => trivial) initially
  simpa using kept.once

/-- The sessions of two periodic checks of a confirmed contract, the second after
the attestor has become unavailable and the refund is due; the second argument
says which requests to the store fail during the first. -/
def sampleSessions (down : WalletRequest → Bool) :
    List (Session Unit ContractStore WalletRequest WalletRequest.Answer
      (Except DlcError (List Report))) :=
  let first := eval (serve (sampleOthers (fun _ => 0) true 0 down))
    (periodicCheck sampleManager).run
    (sampleStore (.confirmed (sampleSigned (.replicate 32 1) (.replicate 32 2))))
  let second := eval (serve (sampleOthers (fun _ => 0) false 100 fun _ => false))
    (periodicCheck sampleManager).run first.2.2
  [⟨(), first.1, first.2.1⟩, ⟨(), second.1, second.2.1⟩]

theorem runs_sampleSessions (down : WalletRequest → Bool) :
    ∃ start final, RunsEach (World True) (fun _ : Unit => (periodicCheck sampleManager).run)
      start (sampleSessions down) final :=
  ⟨_, _, _, runs_eval (serve (sampleOthers (fun _ => 0) true 0 down))
      (world_serve True _) _ _,
    _, runs_eval (serve (sampleOthers (fun _ => 0) false 100 fun _ => false))
      (world_serve True _) _ _, rfl⟩

/-- The history of the two checks when the store works. -/
def sampleHistory (down : WalletRequest → Bool) : List WalletStep :=
  (sampleSessions down).flatMap (·.steps)

theorem periodicChecks_settle_once_sampleHistory :
    Recorded .cet (.replicate 32 2) ((sampleHistory fun _ => false).take 12) ∧
      settles? ((sampleHistory fun _ => false).take 12)
        ((sampleHistory fun _ => false).get ⟨12, by decide⟩) ≠
          some (.refund, .replicate 32 2) := by
  obtain ⟨start, final, runs⟩ := runs_sampleSessions fun _ => false
  have recorded : Recorded .cet (.replicate 32 2)
      ((sampleHistory fun _ => false).take 12) := by
    refine ⟨(sampleHistory fun _ => false).take 5,
      (sampleHistory fun _ => false).get ⟨5, by decide⟩,
      (sampleHistory fun _ => false).get ⟨6, by decide⟩, _, rfl, by decide, by decide, ?_⟩
    exact ⟨_, rfl, rfl⟩
  exact ⟨recorded, periodicChecks_settle_once runs _ _ _ (split_get _ ⟨12, by decide⟩)
    .cet .refund _ recorded⟩

/-- When the update after the CET is lost, the refund is sent as well. -/
theorem periodicChecks_send_both :
    ¬ ∀ (manager : Manager) (start final : ContractStore)
      (sessions : List (Session Unit ContractStore WalletRequest WalletRequest.Answer
        (Except DlcError (List Report)))),
      RunsEach (World True) (fun _ : Unit => (periodicCheck manager).run) start
        sessions final →
      EachStep (fun past step => ∀ first second id, first ≠ second →
        Sent first id past → settles? past step ≠ some (second, id))
        (sessions.flatMap (·.steps)) := by
  intro always
  obtain ⟨start, final, runs⟩ := runs_sampleSessions WalletRequest.isWrite
  refine always _ _ _ _ runs _ _ _
    (split_get (sampleHistory WalletRequest.isWrite) ⟨14, by decide⟩) .cet .refund
    (.replicate 32 2) (by decide) ?_ (by decide)
  exact ⟨_, _, _, split_get _ ⟨5, by decide⟩, by decide, by decide⟩

end LinkManager

end DlcStack
