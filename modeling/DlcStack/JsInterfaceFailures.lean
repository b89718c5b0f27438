import DlcStack.EffectSessions
import DlcStack.JsDlcInterface

/-!
# Offers that the browser wallet fails to accept

`accept_offer` stores the offer before it accepts it.  A failure in between leaves the
offer in the store, where it stands in the way of the next call.
-/

namespace DlcStack

namespace JsDlcInterface

open Program hiding ask
open LinkManager

/-! ## Updates that are cut off -/

/-- An update of a contract that moved stores it without the deletion under its temporary
identifier, whose failure is ignored, or fails after the deletion. -/
def InPart : Environment ContractStore WalletRequest WalletRequest.Answer
  | before, .updateContract contract, answer, after =>
      contract.isMoved = true ∧
        (after = before.put contract ∨
          (∃ error, answer = .error error) ∧ after = before.erase contract.getTemporaryId)
  | _, _, _, _ => False

/-- The world where replies can be lost and updates can have their effect in part. -/
def TornWorld : Environment ContractStore WalletRequest WalletRequest.Answer :=
  fun before request answer after =>
    World True before request answer after ∨ InPart before request answer after

/-- Only updates of contracts that move have their effect in part. -/
theorem TornWorld.world {before after : ContractStore} {request : WalletRequest}
    {answer : request.Answer} (served : TornWorld before request answer after)
    (whole : ∀ contract, request = .updateContract contract → contract.isMoved = false) :
    World True before request answer after := by
  rcases served with served | inPart
  · exact served
  · cases request with
    | updateContract contract =>
        exact absurd ((whole contract rfl).symm.trans inPart.1) Bool.false_ne_true
    | _ => exact inPart.elim

theorem TornWorld.unchanged {before after : ContractStore} {request : WalletRequest}
    {answer : request.Answer} (served : TornWorld before request answer after)
    (reads : request.isWrite = false) : after = before := by
  refine (served.world ?_).unchanged reads
  rintro contract rfl
  cases reads

/-- What becomes of a record when a contract is created, with success or not. -/
theorem TornWorld.find?_create {before after : ContractStore} {contract : OfferedContract}
    {answer : Except DlcError Unit}
    (served : TornWorld before (.createContract contract) answer after) (id : ContractId) :
    after.find? id = before.find? id ∨
      id = contract.id ∧ after.find? id = some (.offered contract) := by
  have created (effect : before.createContract contract = some after) :
      after.find? id = before.find? id ∨
        id = contract.id ∧ after.find? id = some (.offered contract) := by
    rw [ContractStore.find?_createContract effect]
    split_ifs with same
    · exact .inr ⟨same, rfl⟩
    · exact .inl rfl
  rcases served.world (by simp) with ⟨-, effect⟩ | ⟨-, rfl | ⟨-, effect⟩⟩
  · exact created effect
  · exact .inl rfl
  · exact created effect

/-- What becomes of a record when a contract is updated, with success or not. -/
theorem TornWorld.find?_update {before after : ContractStore} {contract : DlcContract}
    {answer : Except DlcError Unit}
    (served : TornWorld before (.updateContract contract) answer after) (id : ContractId) :
    after.find? id = before.find? id ∨
      id = contract.getId ∧ after.find? id = some contract ∨
        contract.isMoved = true ∧ id = contract.getTemporaryId ∧ after.find? id = none := by
  have updated (effect : before.updateContract contract = some after) :
      after.find? id = before.find? id ∨
        id = contract.getId ∧ after.find? id = some contract ∨
          contract.isMoved = true ∧ id = contract.getTemporaryId ∧ after.find? id = none := by
    rw [ContractStore.find?_updateContract effect]
    split_ifs with same erased
    · exact .inr (.inl ⟨same, rfl⟩)
    · exact .inr (.inr ⟨erased.1, erased.2, rfl⟩)
    · exact .inl rfl
  rcases served with (⟨-, effect⟩ | ⟨-, rfl | ⟨-, effect⟩⟩) | ⟨moved, rfl | ⟨-, rfl⟩⟩
  · exact updated effect
  · exact .inl rfl
  · exact updated effect
  · rw [UniqueTable.find?_put]
    split_ifs with same
    · exact .inr (.inl ⟨same, rfl⟩)
    · exact .inl rfl
  · rw [UniqueTable.find?_erase]
    split_ifs with same
    · exact .inr (.inr ⟨moved, same, rfl⟩)
    · exact .inl rfl

/-- An update that succeeds has stored the contract. -/
theorem TornWorld.stored {before after : ContractStore} {contract : DlcContract}
    (served : TornWorld before (.updateContract contract) (.ok ()) after) :
    after.find? contract.getId = some contract := by
  rcases served with (⟨-, effect⟩ | ⟨⟨_, ⟨⟩⟩, -⟩) | ⟨-, rfl | ⟨⟨_, ⟨⟩⟩, -⟩⟩
  · rw [ContractStore.find?_updateContract effect]
    exact if_pos rfl
  · rw [UniqueTable.find?_put]
    exact if_pos rfl

section Rules

variable {meets : WalletStep → Prop} {α : Type}
  {post : List WalletStep → Except DlcError α → ContractStore → Prop}
  {past : List WalletStep} {store : ContractStore}

/-- The rule of a request that reads. -/
theorem always_read_bind {request : WalletRequest} {rest : request.Reply → ManagerM α}
    (reads : request.isWrite = false)
    (broken : ∀ error, post (past ++ [⟨store, request, .error error, store⟩])
      (.error error) store)
    (replied : ∀ reply,
      Environment.restrict TornWorld meets store request (.ok reply) store →
        Always (Environment.restrict TornWorld meets) Eq (fun _ _ => True) post
          (past ++ [⟨store, request, .ok reply, store⟩]) store (rest reply).run) :
    Always (Environment.restrict TornWorld meets) Eq (fun _ _ => True) post past store
      (LinkManager.ask request >>= rest).run := by
  refine always_ask_bind fun before moved answer after served => ?_
  obtain rfl := moved
  obtain rfl := served.1.unchanged reads
  refine ⟨trivial, ?_⟩
  cases answer with
  | ok reply => exact replied reply served
  | error error => exact broken error

end Rules

/-! ## Accepting an offer -/

/-- The crate makes the contract of an offer under the temporary identifier of the
message. -/
def keepsTemporaryId (step : WalletStep) : Bool :=
  match step with
  | ⟨_, .tryFromOfferDlc message _, .ok contract, _⟩ =>
      contract.id = message.temporaryContractId
  | _ => true

/-- The world of such a crate. -/
abbrev Keeping : Environment ContractStore WalletRequest WalletRequest.Answer :=
  Environment.restrict TornWorld (keepsTemporaryId · = true)

/-- The step stores an offer. -/
def creates (step : WalletStep) : Bool :=
  match step.request with
  | .createContract _ => step.after ≠ step.before
  | _ => false

/-- The step fails to update a contract after it has deleted the record under its
temporary identifier, and before it has stored the contract. -/
def deletesOnly (step : WalletStep) : Bool :=
  match step.request with
  | .updateContract contract =>
      failed step && decide (step.after = step.before.erase contract.getTemporaryId)
  | _ => false

/-- How a call that accepts an offer ends: with an error before anything is stored, or
without any failure, or with an error after the offer was stored. -/
def Accepts {ε α : Type} (start : ContractStore) (steps : List WalletStep)
    (result : Except ε α) (final : ContractStore) : Prop :=
  (∃ error, result = .error error) ∧ final = start ∧
      (∀ step ∈ steps, creates step = false) ∨
    (∃ value, result = .ok value) ∧ (∀ step ∈ steps, failed step = false) ∨
    (∃ error, result = .error error) ∧ (∃ step ∈ steps, failed step = true) ∧
      (∃ step ∈ steps, creates step = true) ∧
      (final = start ↔ ∃ step ∈ steps, deletesOnly step = true)

theorem Accepts.error {ε ε' α β : Type} {start final : ContractStore}
    {steps : List WalletStep} {error : ε}
    (accepts : Accepts start steps (.error error : Except ε α) final) (other : ε') :
    Accepts start steps (.error other : Except ε' β) final := by
  rcases accepts with ⟨-, rest⟩ | ⟨⟨_, ⟨⟩⟩, -⟩ | ⟨-, rest⟩
  · exact .inl ⟨⟨other, rfl⟩, rest⟩
  · exact .inr (.inr ⟨⟨other, rfl⟩, rest⟩)

theorem creates_of_reads {step : WalletStep} (reads : step.request.isWrite = false) :
    creates step = false := by
  obtain ⟨before, request, answer, after⟩ := step
  cases request <;> first
    | rfl
    | cases reads

theorem deletesOnly_of_reads {step : WalletStep} (reads : step.request.isWrite = false) :
    deletesOnly step = false := by
  obtain ⟨before, request, answer, after⟩ := step
  cases request <;> first
    | rfl
    | cases reads

theorem failed_of_deletesOnly {step : WalletStep} (deletes : deletesOnly step = true) :
    failed step = true := by
  unfold deletesOnly at deletes
  split at deletes
  · exact ((Bool.and_eq_true _ _).mp deletes).1
  · cases deletes

/-- Steps that succeeded and wrote nothing. -/
def Silent (steps : List WalletStep) : Prop :=
  ∀ step ∈ steps, failed step = false ∧ step.request.isWrite = false

/-- Steps that succeeded and stored an offer. -/
structure Created (start : ContractStore) (temporaryId : ContractId)
    (steps : List WalletStep) (store : ContractStore) : Prop where
  unbroken : ∀ step ∈ steps, failed step = false
  created : ∃ step ∈ steps, creates step = true
  stored : ∃ offered : OfferedContract, offered.id = temporaryId ∧
    start.createContract offered = some store

section Phases

variable {start store : ContractStore} {temporaryId : ContractId} {past : List WalletStep}
  {ε α : Type}

theorem Silent.snoc {request : WalletRequest} (silent : Silent past)
    (reads : request.isWrite = false) (reply : request.Reply) :
    Silent (past ++ [⟨start, request, .ok reply, start⟩]) := by
  intro step member
  rcases List.mem_append.mp member with member | member
  · exact silent step member
  · obtain rfl := List.mem_singleton.mp member
    exact ⟨rfl, reads⟩

/-- An error before anything is stored. -/
theorem Silent.accepts {step : WalletStep} (silent : Silent past)
    (creating : creates step = false) (error : ε) :
    Accepts start (past ++ [step]) (.error error : Except ε α) start := by
  refine .inl ⟨⟨error, rfl⟩, rfl, fun other member => ?_⟩
  rcases List.mem_append.mp member with member | member
  · exact creates_of_reads (silent other member).2
  · rw [List.mem_singleton.mp member]
    exact creating

theorem Created.snoc {request : WalletRequest}
    (created : Created start temporaryId past store) (reply : request.Reply)
    (after : ContractStore) :
    Created start temporaryId (past ++ [⟨store, request, .ok reply, after⟩]) store := by
  obtain ⟨unbroken, ⟨step, member, creating⟩, stored⟩ := created
  refine ⟨fun other member => ?_, ⟨step, List.mem_append_left _ member, creating⟩, stored⟩
  rcases List.mem_append.mp member with member | member
  · exact unbroken other member
  · obtain rfl := List.mem_singleton.mp member
    rfl

theorem ne_of_createContract {offered : OfferedContract}
    (inserted : start.createContract offered = some store) : store ≠ start := by
  rintro rfl
  have longer := congrArg List.length (UniqueTable.insert_eq_some_iff.mp inserted).2
  simp at longer

/-- Without the offer, the store is as it was. -/
theorem Created.erase (created : Created start temporaryId past store) :
    store.erase temporaryId = start := by
  obtain ⟨offered, rfl, inserted⟩ := created.stored
  obtain ⟨free, rows⟩ := UniqueTable.insert_eq_some_iff.mp inserted
  refine UniqueTable.ext ?_
  have others : start.rows.filter (fun row => !decide (row.getId = offered.id)) =
      start.rows := by
    refine List.filter_eq_self.mpr fun row member => ?_
    have different : row.getId ≠ offered.id :=
      UniqueTable.find?_eq_none_iff.mp free row member
    simpa using different
  show store.rows.filter (fun row => !decide (row.getId = offered.id)) = start.rows
  rw [rows, List.filter_append, others]
  simp [DlcContract.getId]

/-- An error after the offer was stored. -/
theorem Created.accepts {step : WalletStep} {final : ContractStore}
    (created : Created start temporaryId past store) (fails : failed step = true)
    (undone : final = start ↔ deletesOnly step = true) (error : ε) :
    Accepts start (past ++ [step]) (.error error : Except ε α) final := by
  obtain ⟨creation, member, creating⟩ := created.created
  refine .inr (.inr ⟨⟨error, rfl⟩, ⟨step, by simp, fails⟩,
    ⟨creation, List.mem_append_left _ member, creating⟩, undone.trans ?_⟩)
  constructor
  · intro deletes
    exact ⟨step, by simp, deletes⟩
  · rintro ⟨other, member, deletes⟩
    rcases List.mem_append.mp member with member | member
    · have worked := created.unbroken other member
      rw [failed_of_deletesOnly deletes] at worked
      cases worked
    · rwa [List.mem_singleton.mp member] at deletes

end Phases

section Handlers

variable {start store : ContractStore} {past : List WalletStep} {α β : Type}

/-- Every run of the operation ends as described. -/
abbrev Ends (past : List WalletStep) (store : ContractStore) (operation : ManagerM α)
    (post : List WalletStep → Except DlcError α → ContractStore → Prop) : Prop :=
  Always (Keeping) Eq (fun _ _ => True) post past
    store operation.run

/-- What receiving an offer leaves: the offer is stored, or the call ends here. -/
def Received (start : ContractStore) (temporaryId : ContractId) (steps : List WalletStep)
    (result : Except DlcError α) (store : ContractStore) : Prop :=
  (∃ value, result = .ok value) ∧ Created start temporaryId steps store ∨
    (∃ error, result = .error error) ∧ Accepts start steps result store

/-- Storing the offer. -/
theorem received_createContract {contract : OfferedContract} {temporaryId : ContractId}
    {answer : Except DlcError Unit} {after : ContractStore} (silent : Silent past)
    (addressed : contract.id = temporaryId)
    (writes : Writes True start (start.createContract contract) answer after) :
    Received start temporaryId (past ++ [⟨start, .createContract contract, answer, after⟩])
      answer after := by
  have last : (⟨start, .createContract contract, answer, after⟩ : WalletStep) ∈
      past ++ [⟨start, .createContract contract, answer, after⟩] := by
    simp
  rcases writes with ⟨rfl, effect⟩ | ⟨⟨error, rfl⟩, rfl | ⟨-, effect⟩⟩
  · refine .inl ⟨⟨_, rfl⟩, fun step member => ?_,
      ⟨_, last, decide_eq_true (ne_of_createContract effect)⟩, contract, addressed, effect⟩
    rcases List.mem_append.mp member with member | member
    · exact (silent step member).1
    · rw [List.mem_singleton.mp member]
      rfl
  · refine .inr ⟨⟨error, rfl⟩, silent.accepts ?_ error⟩
    simp [creates]
  · refine .inr ⟨⟨error, rfl⟩, .inr (.inr ⟨⟨error, rfl⟩, ⟨_, last, rfl⟩,
      ⟨_, last, decide_eq_true (ne_of_createContract effect)⟩, ?_⟩)⟩
    constructor
    · exact fun same => absurd same (ne_of_createContract effect)
    · rintro ⟨step, member, deletes⟩
      rcases List.mem_append.mp member with member | member
      · rw [deletesOnly_of_reads (silent step member).2] at deletes
        cases deletes
      · rw [List.mem_singleton.mp member] at deletes
        cases deletes

/-- The rule of a request that reads, while nothing has been written. -/
theorem ends_read {request : WalletRequest} {rest : request.Reply → ManagerM α}
    {temporaryId : ContractId} (reads : request.isWrite = false) (silent : Silent past)
    (replied : ∀ reply,
      Keeping start request (.ok reply) start →
        Silent (past ++ [⟨start, request, .ok reply, start⟩]) →
          Ends (past ++ [⟨start, request, .ok reply, start⟩]) start (rest reply)
            (Received start temporaryId)) :
    Ends past start (LinkManager.ask request >>= rest) (Received start temporaryId) := by
  refine always_read_bind reads (fun error => .inr ⟨⟨error, rfl⟩, ?_⟩)
    fun reply served => replied reply served (silent.snoc reads reply)
  exact silent.accepts (creates_of_reads reads) error

theorem ends_onOfferMessage (silent : Silent past) (offer : OfferDlc)
    (counterParty : PublicKey) :
    Ends past start (onOfferMessage offer counterParty)
      (Received start offer.temporaryContractId) := by
  unfold onOfferMessage
  refine ends_read rfl silent fun _ _ silent => ?_
  refine ends_read rfl silent fun contract served silent => ?_
  have addressed : contract.id = offer.temporaryContractId := of_decide_eq_true served.2
  refine ends_read rfl silent fun _ _ silent => ?_
  refine ends_read rfl silent fun stored _ silent => ?_
  cases stored with
  | some other =>
      refine .inr ⟨⟨_, rfl⟩, .inl ⟨⟨_, rfl⟩, rfl, fun step member => ?_⟩⟩
      exact creates_of_reads (silent step member).2
  | none =>
      refine (always_ask _ _).mpr fun before moved answer after served => ⟨trivial, ?_⟩
      obtain rfl := moved
      exact received_createContract silent addressed (served.1.world (by simp))

/-- The rule of a request that reads, once the offer is stored. -/
theorem ends_read_created {request : WalletRequest} {rest : request.Reply → ManagerM α}
    {temporaryId : ContractId} (reads : request.isWrite = false)
    (created : Created start temporaryId past store)
    (replied : ∀ reply,
      Keeping store request (.ok reply) store →
        Created start temporaryId (past ++ [⟨store, request, .ok reply, store⟩]) store →
          Ends (past ++ [⟨store, request, .ok reply, store⟩]) store (rest reply)
            (Accepts start)) :
    Ends past store (LinkManager.ask request >>= rest) (Accepts start) := by
  refine always_read_bind reads (fun error => created.accepts rfl ?_ error)
    fun reply served => replied reply served (created.snoc reply store)
  obtain ⟨offered, -, inserted⟩ := created.stored
  constructor
  · exact fun same => absurd same (ne_of_createContract inserted)
  · intro deletes
    rw [deletesOnly_of_reads reads] at deletes
    cases deletes

theorem ends_acceptContractOffer {manager : Manager} {temporaryId : ContractId}
    (created : Created start temporaryId past store) :
    Ends past store (acceptContractOffer manager temporaryId) (Accepts start) := by
  unfold acceptContractOffer getContractInState
  rw [bind_assoc]
  refine ends_read_created rfl created fun found served created => ?_
  obtain ⟨offered, rfl, inserted⟩ := created.stored
  have stored : found = some (.offered offered) := by
    rw [(served.1.world (by simp)).2 found rfl, ContractStore.find?_createContract inserted]
    exact if_pos rfl
  subst stored
  refine ends_read_created rfl created fun reply served created => ?_
  obtain ⟨accepted, message⟩ := reply
  have built := ((served.1.world (by simp)).2 accepted message rfl).1
  refine ends_read_created rfl created fun network _ created => ?_
  refine ends_read_created rfl created fun _ _ created => ?_
  refine always_ask_bind fun before moved answer after served => ⟨trivial, ?_⟩
  obtain rfl := moved
  cases answer with
  | ok reply =>
      exact .inr (.inl ⟨⟨_, rfl⟩, Created.unbroken (created.snoc _ after)⟩)
  | error error =>
      refine created.accepts rfl ?_ error
      have undone : store.erase accepted.offeredContract.id = start :=
        built ▸ created.erase
      simp [deletesOnly, failed, DlcContract.getTemporaryId, undone]

theorem ends_acceptOffer (manager : Manager) (offerJson : Except String OfferDlc) :
    Always (Keeping) Eq (fun _ _ => True)
      (Accepts start) [] start (acceptOffer manager offerJson).run := by
  refine (always_adapt _ _).mpr ?_
  cases offerJson with
  | error error => exact .inl ⟨⟨_, rfl⟩, rfl, by simp⟩
  | ok offer =>
      refine (always_run_bind (toWalletError manager _) _).mpr ((always_adapt _ _).mpr
        ((always_run_bind _ _).mpr ?_))
      have silent : Silent [] := by simp [Silent]
      refine (ends_onOfferMessage silent offer _).post_mono fun past result store received => ?_
      rcases received with ⟨⟨value, rfl⟩, created⟩ | ⟨⟨error, rfl⟩, accepts⟩
      · refine (always_run_bind (toWalletError manager _) _).mpr ((always_adapt _ _).mpr ?_)
        refine (ends_acceptContractOffer created).post_mono fun past result store accepts => ?_
        cases result with
        | ok reply =>
            rcases accepts with ⟨⟨_, ⟨⟩⟩, -⟩ | ⟨-, unbroken⟩ | ⟨⟨_, ⟨⟩⟩, -⟩
            exact .inr (.inl ⟨⟨reply.2.2, rfl⟩, unbroken⟩)
        | error error => exact accepts.error _
      · exact accepts.error _

/-- A call that accepts an offer and fails leaves the store as it was exactly if no request
fails, or the offer is not stored, or the update that fails last has deleted it. -/
theorem acceptOffer_error_iff {manager : Manager} {offerJson : Except String OfferDlc}
    {start final : ContractStore} {steps : List WalletStep}
    {result : Except String AcceptDlc}
    (run : Runs TornWorld (acceptOffer manager offerJson).run start steps result final)
    (keeps : ∀ step ∈ steps, keepsTemporaryId step = true) :
    (∀ error, result = .error error → final = start) ↔
      (∀ step ∈ steps, failed step = false) ∨ (∀ step ∈ steps, creates step = false) ∨
        ∃ step ∈ steps, deletesOnly step = true := by
  rcases ((ends_acceptOffer manager offerJson).of_runs (run.restrict keeps)).2 with
    ⟨-, rfl, noOffer⟩ | ⟨⟨value, rfl⟩, unbroken⟩ |
    ⟨⟨error, rfl⟩, ⟨failure, failureMem, fails⟩, ⟨creation, creationMem, creating⟩, undone⟩
  · exact ⟨fun _ => .inr (.inl noOffer), fun _ _ _ => rfl⟩
  · exact ⟨fun _ => .inl unbroken, by rintro _ _ ⟨⟩⟩
  · rw [List.nil_append] at failureMem creationMem undone
    constructor
    · exact fun unchanged => .inr (.inr (undone.mp (unchanged error rfl)))
    · rintro (unbroken | noOffer | deletes) _ _
      · exact absurd (unbroken failure failureMem) (by simp [fails])
      · exact absurd (noOffer creation creationMem) (by simp [creating])
      · exact undone.mpr deletes

/-- An offer that is stored is not accepted. -/
theorem acceptOffer_error_of_stored {manager : Manager} {offer : OfferDlc}
    {found : DlcContract} {start final : ContractStore} {steps : List WalletStep}
    {result : Except String AcceptDlc}
    (run : Runs TornWorld (acceptOffer manager (.ok offer)).run start steps result final)
    (keeps : ∀ step ∈ steps, keepsTemporaryId step = true)
    (stored : start.find? offer.temporaryContractId = some found) :
    ∃ error, result = .error error := by
  have always : Always Keeping Eq (fun _ _ => True)
      (fun _ result _ => ∃ error, result = .error error) [] start
      (acceptOffer manager (.ok offer)).run := by
    refine (always_adapt _ _).mpr ?_
    refine (always_run_bind (toWalletError manager _) _).mpr ((always_adapt _ _).mpr
      ((always_run_bind _ _).mpr ?_))
    unfold onOfferMessage
    refine always_read_bind rfl (fun error => ⟨_, rfl⟩) fun _ _ => ?_
    refine always_read_bind rfl (fun error => ⟨_, rfl⟩) fun contract served => ?_
    have addressed : contract.id = offer.temporaryContractId := of_decide_eq_true served.2
    refine always_read_bind rfl (fun error => ⟨_, rfl⟩) fun _ _ => ?_
    refine always_read_bind rfl (fun error => ⟨_, rfl⟩) fun existing served => ?_
    obtain rfl : existing = some found := by
      rw [(served.1.world (by simp)).2 existing rfl, addressed, stored]
    exact ⟨_, rfl⟩
  exact (always.of_runs (run.restrict keeps)).2

/-! ## An offer to accept -/

def sampleOfferDlc : OfferDlc :=
  ⟨.replicate 32 0, (sampleOffer (.replicate 32 0)).contractInfo⟩

/-- Others that find the offer valid or not, and can fund it or not. -/
def offeredOthers (valid funded : Bool) : Others where
  down _ := false
  answers
    | .validateOffer .. =>
        if valid then .ok () else .error (.invalidParameters "refund locktime")
    | .tryFromOfferDlc message counterParty =>
        .ok ⟨message.temporaryContractId, message.contractInfo, counterParty⟩
    | .validateOfferedContract _ => .ok ()
    | .acceptContract offered =>
        if funded then
          .ok (⟨offered, [.enum], ⟨⟨"fund", 0⟩, ⟨"refund", 100⟩, "script"⟩, .replicate 32 1⟩,
            ⟨offered.id⟩)
        else .error (.walletError "not enough utxos")
    | .getNetwork => .ok "regtest"
    | .importAddress .. => .ok ()
    | _ => .error (.ioError "not answered")

/-- The offer is received by a wallet without contracts. -/
def sampleAccepting (valid funded : Bool) :
    List WalletStep × Except String AcceptDlc × ContractStore :=
  eval (serve (offeredOthers valid funded))
    (acceptOffer sampleManager (.ok sampleOfferDlc)).run UniqueTable.empty

theorem runs_sampleAccepting (valid funded : Bool) :
    Runs (World False) (acceptOffer sampleManager (.ok sampleOfferDlc)).run UniqueTable.empty
      (sampleAccepting valid funded).1 (sampleAccepting valid funded).2.1
      (sampleAccepting valid funded).2.2 :=
  runs_eval _ (world_serve False _) _ _

/-- The update of a contract that moves is cut off after its deletion. -/
def serveTorn (others : Others) : Responder ContractStore WalletRequest WalletRequest.Answer
  | store, .updateContract contract =>
      if contract.isMoved then
        (.error (.storageError "unavailable"), store.erase contract.getTemporaryId)
      else serve others store (.updateContract contract)
  | store, request => serve others store request

theorem tornWorld_serveTorn (others : Others) (store : ContractStore)
    (request : WalletRequest) :
    TornWorld store request (serveTorn others store request).1
      (serveTorn others store request).2 := by
  cases request with
  | updateContract contract =>
      unfold serveTorn
      dsimp only
      split_ifs with moved
      · exact .inr ⟨moved, .inr ⟨⟨_, rfl⟩, rfl⟩⟩
      · exact .inl (world_serve True others store (.updateContract contract))
  | _ => exact .inl (world_serve True others store _)

/-- The offer is received and accepted up to the update, which has deleted it. -/
def sampleTorn : List WalletStep × Except String AcceptDlc × ContractStore :=
  eval (serveTorn (offeredOthers true true))
    (acceptOffer sampleManager (.ok sampleOfferDlc)).run UniqueTable.empty

/-- An invalid offer is not stored, and one whose update is cut off is not stored any more. -/
theorem acceptOffer_error_sampleAccepting :
    (sampleAccepting false true).2.1.toOption = none ∧
      (sampleAccepting false true).2.2 = UniqueTable.empty ∧
      sampleTorn.2.1.toOption = none ∧ sampleTorn.2.2 = UniqueTable.empty := by
  have invalid : Runs TornWorld _ _ _ _ _ := runs_eval _
    (fun store request => .inl (world_serve True (offeredOthers false true) store request))
    (acceptOffer sampleManager (.ok sampleOfferDlc)).run UniqueTable.empty
  have torn : Runs TornWorld _ _ sampleTorn.1 _ _ := runs_eval _
    (tornWorld_serveTorn (offeredOthers true true))
    (acceptOffer sampleManager (.ok sampleOfferDlc)).run UniqueTable.empty
  refine ⟨rfl, ?_, rfl, ?_⟩
  · exact (acceptOffer_error_iff invalid (by decide +kernel)).mpr
      (.inr (.inl (by decide +kernel))) _ rfl
  · exact (acceptOffer_error_iff torn (by decide +kernel)).mpr
      (.inr (.inr (by decide +kernel))) _ rfl

/-- An offer that could not be funded stays stored. -/
theorem not_acceptOffer_error :
    ¬ ∀ (manager : Manager) (offerJson : Except String OfferDlc) (start final : ContractStore)
        (steps : List WalletStep) (result : Except String AcceptDlc),
        Runs (World False) (acceptOffer manager offerJson).run start steps result final →
        (∀ step ∈ steps, keepsTemporaryId step = true) →
        ∀ error, result = .error error → final = start := by
  intro claimed
  have unchanged := claimed _ _ _ _ _ _ (runs_sampleAccepting true false)
    (by decide +kernel) _ rfl
  exact absurd unchanged (by decide +kernel)

end Handlers

end JsDlcInterface

end DlcStack
