import DlcStack.ManagerIsolation

/-!
# A second periodic check

While all storage requests succeed and nothing else changes its answers, the check
of a contract leaves its record alone or moves it to a state that the later phases
list, or none.  After one periodic check no record is left that a check would move,
so a second one changes nothing and returns nothing.
-/

namespace DlcStack

namespace LinkManager

open Program hiding ask
open Clients Clients.AsyncStorageApiProvider

/-- The check of a record reports nothing and leaves it alone, or moves it to one of
these states. -/
def Settled (row : Storage.Contract) (later : List String) (result : Except DlcError Bool)
    (after : Storage.Contract) : Prop :=
  result ≠ .ok true ∧ after = row ∨ after.state ∈ later

theorem settled_error (row : Storage.Contract) (later : List String) (error : DlcError) :
    Settled row later (.error error) row :=
  .inl ⟨by simp, rfl⟩

theorem settled_unreported (row : Storage.Contract) (later : List String) :
    Settled row later (.ok false) row :=
  .inl ⟨by simp, rfl⟩

section Rules

variable {provider : AsyncStorageApiProvider} {surroundings : Surroundings}
  {row : Storage.Contract} {α : Type} {request : WalletRequest}
  {post : List (Step Storage.Contract WalletRequest WalletRequest.Answer) →
    Except DlcError α → Storage.Contract → Prop}
  {past : List (Step Storage.Contract WalletRequest WalletRequest.Answer)}

/-- The rule of a request to others: the record stays. -/
theorem always_answered {rest : request.Reply → ManagerM α}
    (other : ∀ contract, request ≠ .updateContract contract)
    (replied : ∀ past reply, Always (serveRow provider surroundings).env Eq
      (fun _ _ => True) post past row (rest reply).run)
    (failed : ∀ past error, post past (.error error) row) :
    Always (serveRow provider surroundings).env Eq (fun _ _ => True) post past row
      (ask request >>= rest).run := by
  rintro before rfl answer after served
  obtain rfl : after = row := by
    have same : serveRow provider surroundings row request = (answer, after) := served
    cases request with
    | updateContract contract => exact absurd rfl (other contract)
    | _ => exact (congrArg Prod.snd same).symm
  refine ⟨trivial, ?_⟩
  cases answer with
  | ok reply => exact replied _ reply
  | error error => exact failed _ error

/-- The rule of an update: the record is in the contract's state, or it stays. -/
theorem always_updated (up : ∀ request, surroundings.link request = .up)
    {target : DlcContract} {rest : Unit → ManagerM α}
    (stored : ∀ past after, after.state = target.getContractStateStr →
      Always (serveRow provider surroundings).env Eq (fun _ _ => True) post past after
        (rest ()).run)
    (failed : ∀ past error, post past (.error error) row) :
    Always (serveRow provider surroundings).env Eq (fun _ _ => True) post past row
      (ask (.updateContract target) >>= rest).run := by
  rintro before rfl answer after served
  refine ⟨trivial, ?_⟩
  have same : (surroundings.link (.updateContract target)).pass row
      (updateRow provider target row) = (answer, after) := served
  rw [up, Link.pass, updateRow] at same
  cases written : provider.encode target with
  | ok content =>
      rw [written] at same
      obtain ⟨rfl, rfl⟩ := Prod.mk.inj same
      exact stored _ _ rfl
  | error error =>
      rw [written] at same
      obtain ⟨rfl, rfl⟩ := Prod.mk.inj same
      exact failed _ _

end Rules

/-! ## The checks -/

section Checks

variable {provider : AsyncStorageApiProvider} {surroundings : Surroundings}

theorem settled_checkSignedContract (up : ∀ request, surroundings.link request = .up)
    (contract : SignedContract) (row : Storage.Contract) :
    Always (serveRow provider surroundings).env Eq (fun _ _ => True)
      (fun _ result after => Settled row ["confirmed"] result after) [] row
      (checkSignedContract contract).run := by
  unfold checkSignedContract
  refine always_answered (by simp) (fun past confirmations => ?_)
    fun _ error => settled_error row _ error
  split_ifs
  · refine always_updated up (fun past after moved => .inr ?_)
      fun _ error => settled_error row _ error
    simp [moved, DlcContract.getContractStateStr]
  · exact settled_unreported row _

theorem settled_checkPreclosedContract (up : ∀ request, surroundings.link request = .up)
    (manager : Manager) (contract : PreClosedContract) (row : Storage.Contract) :
    Always (serveRow provider surroundings).env Eq (fun _ _ => True)
      (fun _ result after => Settled row ["closed"] result after) [] row
      (checkPreclosedContract manager contract).run := by
  unfold checkPreclosedContract
  refine always_answered (by simp) (fun past confirmations => ?_)
    fun _ error => settled_error row _ error
  split_ifs
  · refine always_updated up (fun past after moved => .inr ?_)
      fun _ error => settled_error row _ error
    simp [moved, DlcContract.getContractStateStr]
  · exact settled_unreported row _

/-- The states in which the check of a confirmed contract can leave it. -/
def settledStates : List String :=
  ["pre_closed", "closed", "refunded"]

private theorem settled_refund (up : ∀ request, surroundings.link request = .up)
    (contract : SignedContract) (row : Storage.Contract)
    (past : List (Step Storage.Contract WalletRequest WalletRequest.Answer)) :
    Always (serveRow provider surroundings).env Eq (fun _ _ => True)
      (fun _ result after => Settled row settledStates result after) past row
      (do let _ ← checkRefund contract
          return false : ManagerM Bool).run := by
  have stays {past : List (Step Storage.Contract WalletRequest WalletRequest.Answer)} :
      Always (serveRow provider surroundings).env Eq (fun _ _ => True)
        (fun _ result after => Settled row settledStates result after) past row
        (return false : ManagerM Bool).run := settled_unreported row _
  have recorded {past : List (Step Storage.Contract WalletRequest WalletRequest.Answer)} :
      Always (serveRow provider surroundings).env Eq (fun _ _ => True)
        (fun _ result after => Settled row settledStates result after) past row
        (do let _ ← ask (.updateContract (.refunded contract))
            return false : ManagerM Bool).run := by
    refine always_updated up (fun past after moved => .inr ?_)
      fun _ error => settled_error row _ error
    simp [moved, DlcContract.getContractStateStr, settledStates]
  unfold checkRefund
  rw [bind_assoc]
  refine always_answered (by simp) (fun past unixtime => ?_)
    fun _ error => settled_error row _ error
  dsimp only
  split_ifs
  · rw [bind_assoc]
    refine always_answered (by simp) (fun past confirmations => ?_)
      fun _ error => settled_error row _ error
    rw [bind_assoc]
    split_ifs
    · unfold sendRefund
      rw [bind_assoc]
      refine always_answered (by simp) (fun past refund => ?_)
        fun _ error => settled_error row _ error
      exact always_answered (by simp) (fun past _ => recorded)
        fun _ error => settled_error row _ error
    · exact recorded
  · exact stays

private theorem settled_close (up : ∀ request, surroundings.link request = .up)
    (manager : Manager) (contract : SignedContract) (cet : Transaction)
    (attestations : List OracleAttestation) (row : Storage.Contract)
    (past : List (Step Storage.Contract WalletRequest WalletRequest.Answer)) :
    Always (serveRow provider surroundings).env Eq (fun _ _ => True)
      (fun _ result after => Settled row settledStates result after) past row
      (do let closed ← closeContract manager contract cet attestations
          let _ ← ask (.updateContract closed)
          return true : ManagerM Bool).run := by
  have recorded {past : List (Step Storage.Contract WalletRequest WalletRequest.Answer)}
      {target : DlcContract} (later : target.getContractStateStr ∈ settledStates) :
      Always (serveRow provider surroundings).env Eq (fun _ _ => True)
        (fun _ result after => Settled row settledStates result after) past row
        (do let _ ← ask (.updateContract target)
            return true : ManagerM Bool).run :=
    always_updated up (fun past after moved => .inr (moved ▸ later))
      fun _ error => settled_error row _ error
  have preClosed {contract : PreClosedContract} :
      (DlcContract.preClosed contract).getContractStateStr ∈ settledStates := by
    simp [DlcContract.getContractStateStr, settledStates]
  unfold closeContract
  rw [bind_assoc]
  refine always_answered (by simp) (fun past confirmations => ?_)
    fun _ error => settled_error row _ error
  split_ifs
  · rw [bind_assoc]
    exact always_answered (by simp) (fun past _ => recorded preClosed)
      fun _ error => settled_error row _ error
  · exact recorded preClosed
  · exact recorded (by simp [DlcContract.getContractStateStr, settledStates])

theorem settled_checkConfirmedContract (up : ∀ request, surroundings.link request = .up)
    (manager : Manager) (contract : SignedContract) (row : Storage.Contract) :
    Always (serveRow provider surroundings).env Eq (fun _ _ => True)
      (fun _ result after => Settled row settledStates result after) [] row
      (checkConfirmedContract manager contract).run := by
  unfold checkConfirmedContract
  refine (always_run_lift_bind _ _).mpr ?_
  have unchanged : Always (serveRow provider surroundings).env Eq (fun _ _ => True)
      (fun _ _ after => after = row) [] row
      (getClosableContractInfo manager contract).run := by
    refine (asks_getClosableContractInfo manager contract).always ?_ rfl
    rintro before _ answer after ⟨oracle, eventId, rfl⟩ rfl served
    exact (congrArg Prod.snd served).symm
  refine unchanged.post_mono ?_
  rintro past found after rfl
  cases found with
  | error error => exact settled_refund up contract after past
  | ok found =>
      cases found with
      | none => exact settled_refund up contract after past
      | some found =>
          obtain ⟨info, adaptor, attestations⟩ := found
          exact always_answered (by simp) (fun past cet => settled_close up manager contract cet _
            after past) fun _ error => settled_error after _ error

end Checks

/-! ## Records at rest -/

/-- A phase would neither report nor change the record. -/
def Phase.Rests (phase : Phase) (provider : AsyncStorageApiProvider)
    (surroundings : Surroundings) (row : Storage.Contract) : Prop :=
  (phase.checked provider surroundings row).1 ≠ .ok true ∧
    (phase.checked provider surroundings row).2 = row

section Rests

variable {provider : AsyncStorageApiProvider} {surroundings : Surroundings}

/-- A record in another state is not checked. -/
theorem Phase.rests_of_state_ne {phase : Phase} {row : Storage.Contract}
    (other : row.state ≠ phase.state) : phase.Rests provider surroundings row := by
  have unlisted : phase.listed? provider row = none := if_neg fun ours => other ours.2
  unfold Phase.Rests Phase.checked
  rw [unlisted]
  exact ⟨by simp, rfl⟩

/-- A record rests, or its phase moves it to a later state. -/
theorem Phase.rests_or_moved (phase : Phase) {later : List String}
    (settles : ∀ contract row, Always (serveRow provider surroundings).env Eq
      (fun _ _ => True) (fun _ result after => Settled row later result after) [] row
      (phase.check contract).run) (row : Storage.Contract) :
    phase.Rests provider surroundings row ∨
      (phase.checked provider surroundings row).2.state ∈ later := by
  unfold Phase.Rests Phase.checked
  cases phase.listed? provider row with
  | none => exact .inl ⟨by simp, rfl⟩
  | some contract => exact (settles contract row).of_eval

/-- After all three phases a record rests in each. -/
theorem rests_checkedRow (up : ∀ request, surroundings.link request = .up)
    (manager : Manager) (row : Storage.Contract) :
    let after := checkedRow manager provider (fun _ => surroundings) row
    signedPhase.Rests provider surroundings after ∧
      (confirmedPhase manager).Rests provider surroundings after ∧
      (preclosedPhase manager).Rests provider surroundings after := by
  simp only [checkedRow, up, if_true]
  have first := signedPhase.rests_or_moved
    (@settled_checkSignedContract provider surroundings up) row
  set signed := (signedPhase.checked provider surroundings row).2
  have second := (confirmedPhase manager).rests_or_moved
    (@settled_checkConfirmedContract provider surroundings up manager) signed
  set confirmed := ((confirmedPhase manager).checked provider surroundings signed).2
  have third := (preclosedPhase manager).rests_or_moved
    (@settled_checkPreclosedContract provider surroundings up manager) confirmed
  have elsewhere {after : Storage.Contract} (phase : Phase) {later : List String}
      (moved : after.state ∈ later) (absent : phase.state ∉ later) :
      phase.Rests provider surroundings after :=
    Phase.rests_of_state_ne fun same => absent (same ▸ moved)
  rcases third with resting | moved
  · have stays : ((preclosedPhase manager).checked provider surroundings confirmed).2 =
        confirmed := resting.2
    rw [stays]
    rcases second with resting' | moved
    · have stays' : confirmed = signed := resting'.2
      rw [stays'] at resting ⊢
      rcases first with resting'' | moved
      · have stays'' : signed = row := resting''.2
        rw [stays''] at resting resting' ⊢
        exact ⟨resting'', resting', resting⟩
      · exact ⟨elsewhere signedPhase moved (by decide), resting', resting⟩
    · exact ⟨elsewhere signedPhase moved (by decide),
        elsewhere (confirmedPhase manager) moved (by simp [confirmedPhase, settledStates]),
        resting⟩
  · exact ⟨elsewhere signedPhase moved (by decide),
      elsewhere (confirmedPhase manager) moved (by simp [confirmedPhase]),
      elsewhere (preclosedPhase manager) moved (by simp [preclosedPhase])⟩

/-- The same records are stored. -/
def SameRecords (first second : Storage.Database) : Prop :=
  ∀ key, first.contracts.find? key = second.contracts.find? key

theorem SameRecords.mem {first second : Storage.Database} (same : SameRecords first second)
    {row : Storage.Contract} (member : row ∈ first.contracts.rows) :
    row ∈ second.contracts.rows := by
  rw [UniqueTable.mem_rows_iff] at member ⊢
  rw [← same]
  exact member

theorem sameRecords_of_rests {phase : Phase} {db after : Storage.Database}
    (resting : ∀ row ∈ db.contracts.rows, phase.Rests provider surroundings row)
    (advanced : ∀ key, after.contracts.find? key =
      (db.contracts.find? key).map fun row =>
        (phase.checked provider surroundings row).2) : SameRecords after db := by
  intro key
  rw [advanced]
  cases stored : db.contracts.find? key with
  | none => rfl
  | some row =>
      have member := (UniqueTable.find?_eq_some_iff.mp stored).1
      rw [Option.map_some, (resting row member).2]

/-- A periodic check where all records rest changes none and returns nothing. -/
theorem eval_periodicCheck_of_rests (up : ∀ request, surroundings.link request = .up)
    (roundTrip : provider.RoundTrip) (manager : Manager) {db : Storage.Database}
    (legible : LegibleRows provider db)
    (resting : ∀ row ∈ db.contracts.rows,
      signedPhase.Rests provider surroundings row ∧
        (confirmedPhase manager).Rests provider surroundings row ∧
        (preclosedPhase manager).Rests provider surroundings row) :
    ∃ after, (eval (serveRows provider fun _ => surroundings)
        (periodicCheck manager).run (db, 0)).2 = (.ok [], after, 3) ∧
      SameRecords after db := by
  unfold periodicCheck
  rcases (outcome_checkSignedContracts (fun _ => surroundings) legible).bind with
    ⟨down, _⟩ | ⟨-, found, first, evaluated, quiet, advanced⟩
  · exact absurd (up _) down
  rw [evaluated, quiet fun row member => (resting row member).1.1]
  have legible₁ := Phase.legibleRows_checked roundTrip surroundings legible advanced
  have same₁ := sameRecords_of_rests (fun row member => (resting row member).1) advanced
  rcases (outcome_checkConfirmedContracts manager (fun _ => surroundings) legible₁).bind with
    ⟨down, _⟩ | ⟨-, found, second, evaluated, quiet, advanced⟩
  · exact absurd (up _) down
  rw [evaluated, quiet fun row member => (resting row (same₁.mem member)).2.1.1]
  have legible₂ := Phase.legibleRows_checked roundTrip surroundings legible₁ advanced
  have same₂ := sameRecords_of_rests
    (fun row member => (resting row (same₁.mem member)).2.1) advanced
  rcases (outcome_checkPreclosedContracts manager (fun _ => surroundings) legible₂).bind with
    ⟨down, _⟩ | ⟨-, found, third, evaluated, quiet, advanced⟩
  · exact absurd (up _) down
  rw [evaluated, quiet fun row member =>
    (resting row (same₁.mem (same₂.mem member))).2.2.1]
  have same₃ := sameRecords_of_rests
    (fun row member => (resting row (same₁.mem (same₂.mem member))).2.2) advanced
  exact ⟨third, rfl, fun key => ((same₃ key).trans (same₂ key)).trans (same₁ key)⟩

end Rests

/-- While all storage requests succeed and others do not change their answers, a second
periodic check changes no record and returns nothing. -/
theorem periodicCheck_again {formats : ContractFormats} (roundTrip : formats.RoundTrip)
    (publicKey : String) (manager : Manager) {surroundings : Surroundings}
    (up : ∀ request, surroundings.link request = .up) {db : Storage.Database}
    (coherent : (formats.provider publicKey).CoherentRows db)
    (announced : Announced (formats.provider publicKey) db) :
    let check (db : Storage.Database) :=
      (eval (serveRows (formats.provider publicKey) fun _ => surroundings)
        (periodicCheck manager).run (db, 0)).2
    (check (check db).2.1).1 = .ok [] ∧
      SameRecords (check (check db).2.1).2.1 (check db).2.1 := by
  intro check
  have readBack := formats.provider_roundTrip roundTrip publicKey
  have legible := legibleRows_of_coherent coherent announced
  have resting : ∀ row ∈ (check db).2.1.contracts.rows,
      signedPhase.Rests (formats.provider publicKey) surroundings row ∧
        (confirmedPhase manager).Rests (formats.provider publicKey) surroundings row ∧
        (preclosedPhase manager).Rests (formats.provider publicKey) surroundings row := by
    intro row member
    have stored := UniqueTable.mem_rows_iff.mp member
    rw [find?_periodicCheck readBack manager _ legible] at stored
    obtain ⟨old, _, rfl⟩ := Option.map_eq_some_iff.mp stored
    exact rests_checkedRow up manager old
  obtain ⟨after, evaluated, same⟩ := eval_periodicCheck_of_rests up readBack manager
    (legibleRows_periodicCheck readBack manager (fun _ => surroundings) legible) resting
  have second : check (check db).2.1 = (.ok [], after, 3) := evaluated
  rw [second]
  exact ⟨rfl, same⟩

theorem periodicCheck_again_sample :
    let check (db : Storage.Database) :=
      (eval (serveRows (twoFormats.provider "alice") fun _ => confirmingAll 0)
        (periodicCheck sampleManager).run (db, 0)).2
    let db := databaseOf ([.signed (sampleContract 1), .signed (sampleContract 3)].map
      (recordOf (twoFormats.provider "alice")))
    (check (check db).2.1).1 = .ok [] ∧
      SameRecords (check (check db).2.1).2.1 (check db).2.1 :=
  periodicCheck_again (fewFormats_roundTrip _ _ _) "alice" sampleManager (fun _ => rfl)
    (coherentRows_databaseOf
      (ContractFormats.provider_roundTrip (fewFormats_roundTrip _ _ _) "alice")
      (by decide +kernel)) (by decide +kernel)

/-! ## A contract without an announcement in front -/

/-- A contract whose only announcement is in its second contract info. -/
def lateContract : SignedContract :=
  { sampleContract 1 with
    acceptedContract := { (sampleContract 1).acceptedContract with
      offeredContract := { (sampleContract 1).acceptedContract.offeredContract with
        contractInfo := [⟨[], 1⟩, ⟨[⟨"oracle", "event"⟩], 1⟩] } } }

def lateFormats : ContractFormats :=
  fewFormats [lateContract, sampleContract 3] [] []

/-- Every contract has an announcement in one of its contract infos. -/
def SomewhereAnnounced (provider : AsyncStorageApiProvider) (db : Storage.Database) :
    Prop :=
  ∀ row ∈ db.contracts.rows, row.key = provider.publicKey →
    ∀ contract ∈ provider.contract? row, ∀ offer ∈ contract.offer?,
      ∃ info ∈ offer.contractInfo, info.oracleAnnouncements ≠ []

instance (provider : AsyncStorageApiProvider) (db : Storage.Database) :
    Decidable (SomewhereAnnounced provider db) :=
  inferInstanceAs (Decidable (∀ row ∈ db.contracts.rows, _ → _))

/-- The first check stops after such a contract, and the second one goes on. -/
theorem not_periodicCheck_again :
    ¬ ∀ (formats : ContractFormats), formats.RoundTrip → ∀ (publicKey : String)
      (manager : Manager) (surroundings : Surroundings),
      (∀ request, surroundings.link request = .up) → ∀ db : Storage.Database,
      (formats.provider publicKey).CoherentRows db →
      SomewhereAnnounced (formats.provider publicKey) db →
        let check (db : Storage.Database) :=
          (eval (serveRows (formats.provider publicKey) fun _ => surroundings)
            (periodicCheck manager).run (db, 0)).2
        (check (check db).2.1).1 = .ok [] ∧
          SameRecords (check (check db).2.1).2.1 (check db).2.1 := by
  intro claimed
  have again := claimed lateFormats (fewFormats_roundTrip _ _ _) "alice" sampleManager
    (confirmingAll 0) (fun _ => rfl)
    (databaseOf ([.signed lateContract, .signed (sampleContract 3)].map
      (recordOf (lateFormats.provider "alice"))))
    (coherentRows_databaseOf
      (ContractFormats.provider_roundTrip (fewFormats_roundTrip _ _ _) "alice")
      (by decide +kernel)) (by decide +kernel)
  exact absurd again.1 (by decide +kernel)

end LinkManager

end DlcStack
