import DlcStack.ManagerMessages

/-!
# What a failed operation leaves behind

An operation that answers a message or accepts an offer changes the store with its
last request, or marks the contract as failed, so that an error leaves the store as
it was.  Only the countersigned contract is stored before its funding transaction is
broadcast.
-/

namespace DlcStack

namespace LinkManager

open Program

/-- The message that an operation answers. -/
def Operation.message? : Operation → Option DlcMessage
  | .onDlcMessage message _ => some message
  | _ => none

/-- The operations on a message or an offer. -/
def Operation.concludes : Operation → Bool
  | .onDlcMessage _ _ => true
  | .acceptContractOffer _ => true
  | _ => false

/-- A request to broadcast a transaction failed. -/
def failedBroadcast (step : WalletStep) : Bool :=
  match step.request with
  | .sendTransaction _ => failed step
  | _ => false

/-- The verification of the message failed, and the contract that it addresses is
stored as failed. -/
inductive MarkedFailed (manager : Manager) (steps : List WalletStep)
    (start final : ContractStore) : DlcMessage → Prop
  | accept {offered : OfferedContract} {message : AcceptDlc} {error : DlcError}
      {before after : ContractStore}
      (verification : (⟨before, .verifyAcceptedAndSignContract offered message,
        .error error, after⟩ : WalletStep) ∈ steps)
      (stored : start.find? message.temporaryContractId = some (.offered offered))
      (marked : ∀ id, final.find? id =
        if id = message.temporaryContractId then
          some (.failedAccept ⟨offered, message, manager.display error⟩)
        else start.find? id) :
      MarkedFailed manager steps start final (.accept message)
  | sign {accepted : AcceptedContract} {message : SignDlc} {error : DlcError}
      {before after : ContractStore}
      (verification : (⟨before, .verifySignedContract accepted message,
        .error error, after⟩ : WalletStep) ∈ steps)
      (stored : start.find? message.contractId = some (.accepted accepted))
      (marked : ∀ id, final.find? id =
        if id = message.contractId then
          some (.failedSign ⟨accepted, message, manager.display error⟩)
        else start.find? id) :
      MarkedFailed manager steps start final (.sign message)

/-- The store is as it was, or the contract of the message is marked as failed. -/
def Undone (manager : Manager) (message : Option DlcMessage) (steps : List WalletStep)
    (start final : ContractStore) : Prop :=
  final = start ∨
    ∃ addressed, message = some addressed ∧ MarkedFailed manager steps start final addressed

/-- What a run leaves: no broadcast failed, and an error is undone, or a broadcast failed
and the error is not undone. -/
def Leaves {α : Type} (manager : Manager) (message : Option DlcMessage)
    (start : ContractStore) (steps : List WalletStep) (result : Except DlcError α)
    (final : ContractStore) : Prop :=
  (∀ step ∈ steps, failedBroadcast step = false) ∧
      (∀ error, result = .error error → Undone manager message steps start final) ∨
    (∃ step ∈ steps, failedBroadcast step = true) ∧
      ∃ error, result = .error error ∧ ¬ Undone manager message steps start final

theorem failedBroadcast_of_ne {step : WalletStep}
    (quiet : ∀ transaction, step.request ≠ .sendTransaction transaction) :
    failedBroadcast step = false := by
  unfold failedBroadcast
  split
  · exact absurd ‹_› (quiet _)
  · rfl

/-! ## Rules -/

section Rules

variable {manager : Manager} {message : Option DlcMessage} {start store : ContractStore}
  {past : List WalletStep} {α β : Type}

/-- From here on, every run leaves what it should. -/
def Concludes (manager : Manager) (message : Option DlcMessage) (start : ContractStore)
    (past : List WalletStep) (store : ContractStore) (program : ManagerM α) : Prop :=
  Always (World False) Eq (fun _ _ => True) (Leaves manager message start) past store
    program.run

/-- No broadcast failed so far. -/
def Unbroken (steps : List WalletStep) : Prop :=
  ∀ step ∈ steps, failedBroadcast step = false

theorem Unbroken.snoc {step : WalletStep} (unbroken : Unbroken past)
    (last : failedBroadcast step = false) : Unbroken (past ++ [step]) := by
  intro other member
  rcases List.mem_append.mp member with member | member
  · exact unbroken other member
  · rw [List.mem_singleton.mp member]
    exact last

theorem concludes_pure (unbroken : Unbroken past) (value : α) :
    Concludes manager message start past store (return value) :=
  .inl ⟨unbroken, by rintro _ ⟨⟩⟩

theorem concludes_throw (unbroken : Unbroken past) (error : DlcError)
    (undone : Undone manager message past start store) :
    Concludes manager message start past store (throw error : ManagerM α) :=
  .inl ⟨unbroken, fun _ _ => undone⟩

/-- The rule of a request that reads, while nothing has been changed. -/
theorem concludes_read {request : WalletRequest} {rest : request.Reply → ManagerM α}
    (reads : request.isWrite = false)
    (quiet : ∀ transaction, request ≠ .sendTransaction transaction)
    (unbroken : Unbroken past)
    (replied : ∀ reply past, Unbroken past → World False start request (.ok reply) start →
      Concludes manager message start past start (rest reply)) :
    Concludes manager message start past start (ask request >>= rest) := by
  refine always_ask_bind fun before moved answer after served => ?_
  obtain rfl := moved
  obtain rfl := served.unchanged reads
  have unbroken := unbroken.snoc
    (failedBroadcast_of_ne quiet : failedBroadcast ⟨after, request, answer, after⟩ = false)
  refine ⟨trivial, ?_⟩
  cases answer with
  | ok reply => exact replied reply _ unbroken served
  | error error => exact .inl ⟨unbroken, fun _ _ => .inl rfl⟩

/-- The rule of a request that reads and whose failure the program handles. -/
theorem concludes_try {request : WalletRequest}
    {rest : Except DlcError request.Reply → ManagerM α}
    (reads : request.isWrite = false)
    (quiet : ∀ transaction, request ≠ .sendTransaction transaction)
    (unbroken : Unbroken past)
    (answered : ∀ answer, Unbroken (past ++ [⟨start, request, answer, start⟩]) →
      World False start request answer start →
        Concludes manager message start (past ++ [⟨start, request, answer, start⟩]) start
          (rest answer)) :
    Concludes manager message start past start
      (ExceptT.lift (ask request).run >>= rest) := by
  refine (always_run_lift_bind _ _).mpr ((always_ask _ _).mpr ?_)
  intro before moved answer after served
  obtain rfl := moved
  obtain rfl := served.unchanged reads
  exact ⟨trivial, answered answer (unbroken.snoc (failedBroadcast_of_ne quiet)) served⟩

/-- The rule of an update, while nothing has been changed. -/
theorem concludes_update {contract : DlcContract} {rest : Unit → ManagerM α}
    (unbroken : Unbroken past)
    (updated : ∀ step after, Unbroken (past ++ [step]) →
      start.updateContract contract = some after →
        Concludes manager message start (past ++ [step]) after (rest ())) :
    Concludes manager message start past start (ask (.updateContract contract) >>= rest) := by
  refine always_ask_bind fun before moved answer after served => ?_
  obtain rfl := moved
  refine ⟨trivial, ?_⟩
  rcases served with ⟨rfl, effect⟩ | ⟨⟨error, rfl⟩, rfl | ⟨none, _⟩⟩
  · exact updated _ after (unbroken.snoc rfl) effect
  · exact .inl ⟨unbroken.snoc rfl, fun _ _ => .inl rfl⟩
  · exact none.elim

/-- The rule of reading a contract in a state. -/
theorem concludes_getContractInState {id : ContractId} {inState : DlcContract → Option β}
    {state : String} {peer : Option PublicKey} {rest : β → ManagerM α}
    (unbroken : Unbroken past)
    (found : ∀ contract value past, Unbroken past → start.find? id = some contract →
      inState contract = some value →
        Concludes manager message start past start (rest value)) :
    Concludes manager message start past start
      (getContractInState manager id inState state peer >>= rest) := by
  unfold getContractInState
  rw [bind_assoc]
  refine concludes_read rfl (by simp) unbroken fun reply past unbroken served => ?_
  have stored := (served.2 _ rfl).symm
  cases reply with
  | none => exact concludes_throw unbroken _ (.inl rfl)
  | some contract =>
      dsimp only
      split_ifs with stranger
      · exact concludes_throw unbroken _ (.inl rfl)
      · cases inHand : inState contract with
        | none => exact concludes_throw unbroken _ (.inl rfl)
        | some value => exact found contract value past unbroken stored inHand

/-- The rule of a last request. -/
theorem concludes_last {request : WalletRequest}
    (concludes : Concludes manager message start past store
      (ask request >>= fun reply => return reply)) :
    Concludes manager message start past store (ask request) := by
  rwa [bind_pure] at concludes

theorem Concludes.map {program : ManagerM α}
    (concludes : Concludes manager message start past store program) (change : α → β) :
    Concludes manager message start past store (change <$> program) := by
  rw [map_eq_pure_bind]
  refine (always_run_bind _ _).mpr (concludes.post_mono fun past result final leaves => ?_)
  cases result with
  | ok value =>
      rcases leaves with ⟨unbroken, -⟩ | ⟨-, _, ⟨⟩, -⟩
      exact concludes_pure unbroken _
  | error error =>
      rcases leaves with ⟨unbroken, undone⟩ | ⟨broken, _, -, notUndone⟩
      · exact .inl ⟨unbroken, fun _ _ => undone error rfl⟩
      · exact .inr ⟨broken, error, rfl, notUndone⟩

end Rules

/-! ## The handlers -/

section Handlers

variable {manager : Manager} {message : Option DlcMessage} {start : ContractStore}
  {past : List WalletStep}

theorem concludes_acceptContractOffer (unbroken : Unbroken past) (contractId : ContractId) :
    Concludes manager message start past start (acceptContractOffer manager contractId) := by
  unfold acceptContractOffer
  refine concludes_getContractInState unbroken fun _ offered past unbroken _ _ => ?_
  refine concludes_read rfl (by simp) unbroken fun reply past unbroken _ => ?_
  refine concludes_read rfl (by simp) unbroken fun network past unbroken _ => ?_
  refine concludes_read rfl (by simp) unbroken fun _ past unbroken _ => ?_
  exact concludes_update unbroken fun step after unbroken _ => concludes_pure unbroken _

theorem concludes_onOfferMessage (unbroken : Unbroken past) (offer : OfferDlc)
    (counterParty : PublicKey) :
    Concludes manager message start past start (onOfferMessage offer counterParty) := by
  unfold onOfferMessage
  refine concludes_read rfl (by simp) unbroken fun _ past unbroken _ => ?_
  refine concludes_read rfl (by simp) unbroken fun contract past unbroken _ => ?_
  refine concludes_read rfl (by simp) unbroken fun _ past unbroken _ => ?_
  refine concludes_read rfl (by simp) unbroken fun stored past unbroken _ => ?_
  cases stored with
  | some other => exact concludes_throw unbroken _ (.inl rfl)
  | none =>
      refine concludes_last (always_ask_bind fun before moved answer after served => ?_)
      obtain rfl := moved
      refine ⟨trivial, ?_⟩
      rcases served with ⟨rfl, -⟩ | ⟨⟨error, rfl⟩, rfl | ⟨none, _⟩⟩
      · exact concludes_pure (unbroken.snoc rfl) ()
      · exact .inl ⟨unbroken.snoc rfl, fun _ _ => .inl rfl⟩
      · exact none.elim

theorem concludes_onAcceptMessage (unbroken : Unbroken past) (acceptMessage : AcceptDlc)
    (counterParty : PublicKey) :
    Concludes manager (some (.accept acceptMessage)) start past start
      (onAcceptMessage manager acceptMessage counterParty) := by
  unfold onAcceptMessage
  refine concludes_getContractInState unbroken
    fun contract offered past unbroken stored inHand => ?_
  refine concludes_try rfl (by simp) unbroken fun answer unbroken _ => ?_
  cases answer with
  | ok reply =>
      refine concludes_read rfl (by simp) unbroken fun network past unbroken _ => ?_
      refine concludes_read rfl (by simp) unbroken fun _ past unbroken _ => ?_
      exact concludes_update unbroken fun step after unbroken _ => concludes_pure unbroken _
  | error error =>
      obtain rfl := DlcContract.eq_offered_of_offered? inHand
      have addressed : offered.id = acceptMessage.temporaryContractId :=
        (UniqueTable.find?_eq_some_iff.mp stored).2
      refine concludes_update unbroken fun step after unbroken effect => ?_
      have verification : (⟨start, .verifyAcceptedAndSignContract offered acceptMessage,
          .error error, start⟩ : WalletStep) ∈ past ++ [⟨start,
            .verifyAcceptedAndSignContract offered acceptMessage, .error error, start⟩] ++
              [step] := by
        simp
      refine concludes_throw unbroken _
        (.inr ⟨_, rfl, .accept verification stored fun id => ?_⟩)
      rw [ContractStore.find?_updateContract effect]
      simp [DlcContract.isMoved, DlcContract.getId, addressed]

/-- A contract that was stored as signed is not undone. -/
theorem not_undone_signed {signMessage : SignDlc} {steps : List WalletStep}
    {final : ContractStore} {signed : SignedContract}
    (stored : start.find? signed.acceptedContract.contractId =
      some (.accepted signed.acceptedContract))
    (now : final.find? signed.acceptedContract.contractId = some (.signed signed)) :
    ¬ Undone manager (some (.sign signMessage)) steps start final := by
  rintro (rfl | ⟨_, ⟨⟩, marked⟩)
  · rw [now] at stored
    cases stored
  · cases marked with
    | sign verification _ marked =>
        rw [marked] at now
        split_ifs at now with addressed
        · cases now
        · rw [now] at stored
          cases stored

theorem concludes_onSignMessage (unbroken : Unbroken past) (signMessage : SignDlc)
    (peer : PublicKey) :
    Concludes manager (some (.sign signMessage)) start past start
      (onSignMessage manager signMessage peer) := by
  unfold onSignMessage
  refine concludes_getContractInState unbroken
    fun contract accepted past unbroken stored inHand => ?_
  obtain rfl : contract = .accepted accepted := by
    cases contract <;> cases inHand
    rfl
  have addressed : accepted.contractId = signMessage.contractId :=
    (UniqueTable.find?_eq_some_iff.mp stored).2
  refine concludes_try rfl (by simp) unbroken fun answer unbroken served => ?_
  cases answer with
  | ok reply =>
      obtain ⟨signed, fundTx⟩ := reply
      obtain rfl := served.2 signed fundTx rfl
      refine concludes_update unbroken fun step after unbroken effect => ?_
      refine concludes_last (always_ask_bind fun before moved answer last served => ?_)
      obtain rfl := moved
      obtain rfl : last = after := served
      refine ⟨trivial, ?_⟩
      cases answer with
      | ok reply => exact concludes_pure (unbroken.snoc rfl) ()
      | error error =>
          refine .inr ⟨⟨_, List.mem_append_right _ (List.mem_singleton_self _), rfl⟩, error,
            rfl, not_undone_signed (addressed ▸ stored) ?_⟩
          rw [ContractStore.find?_updateContract effect]
          exact if_pos rfl
  | error error =>
      refine concludes_update unbroken fun step after unbroken effect => ?_
      have verification : (⟨start, .verifySignedContract accepted signMessage,
          .error error, start⟩ : WalletStep) ∈ past ++ [⟨start,
            .verifySignedContract accepted signMessage, .error error, start⟩] ++
              [step] := by
        simp
      refine concludes_throw unbroken _
        (.inr ⟨_, rfl, .sign verification stored fun id => ?_⟩)
      rw [ContractStore.find?_updateContract effect]
      simp [DlcContract.isMoved, DlcContract.getId, addressed]

end Handlers

/-- An operation on a message or an offer that fails has left the store as it was, or has
marked the contract whose message did not verify, exactly if no broadcast failed. -/
theorem failed_undone_iff {manager : Manager} {operation : Operation}
    (concludes : operation.concludes = true) {start final : ContractStore}
    {steps : List WalletStep} {result : Except DlcError Outcome}
    (run : Runs (World False) (operation.run manager).run start steps result final) :
    (∀ error, result = .error error →
      Undone manager operation.message? steps start final) ↔
    ∀ step ∈ steps, failedBroadcast step = false := by
  have always : Concludes manager operation.message? start [] start
      (operation.run manager) := by
    have unbroken : Unbroken [] := by simp [Unbroken]
    cases operation with
    | onDlcMessage message counterParty =>
        refine Concludes.map ?_ _
        cases message with
        | offer offer =>
            refine Concludes.map ?_ _
            exact concludes_onOfferMessage unbroken offer counterParty
        | accept accept =>
            refine Concludes.map ?_ _
            exact concludes_onAcceptMessage unbroken accept counterParty
        | sign sign =>
            refine Concludes.map ?_ _
            exact concludes_onSignMessage unbroken sign counterParty
        | other => exact concludes_throw unbroken _ (.inl rfl)
    | acceptContractOffer contractId =>
        exact (concludes_acceptContractOffer unbroken contractId).map _
    | _ => cases concludes
  rcases (always.of_runs run).2 with ⟨unbroken, undone⟩ | ⟨⟨step, member, broken⟩, error,
    rfl, notUndone⟩
  · exact ⟨fun _ => unbroken, fun _ => undone⟩
  · constructor
    · intro undone
      exact absurd (undone error rfl) notUndone
    · intro unbroken
      rw [List.nil_append] at member
      rw [unbroken step member] at broken
      cases broken

/-! ## A message to countersign -/

/-- A contract that waits for its sign message. -/
def sampleAccepted : AcceptedContract :=
  (sampleSigned (Vector.replicate 32 0) (Vector.replicate 32 1)).acceptedContract

def sampleCountersignMessage : SignDlc := ⟨sampleAccepted.contractId⟩

/-- Others that verify the message or not, and broadcast nothing. -/
def countersignOthers (verifies : Bool) : Others where
  down _ := false
  answers
    | .verifySignedContract accepted _ =>
        if verifies then .ok (⟨accepted, none⟩, ⟨accepted.dlcTransactions.fund.txid, 0⟩)
        else .error (.invalidState "signature")
    | .sendTransaction _ => .error (.ioError "unreachable")
    | _ => .error (.ioError "not answered")

/-- The message is answered. -/
def sampleCountersign (verifies : Bool) :
    List WalletStep × Except DlcError Outcome × ContractStore :=
  eval (serve (countersignOthers verifies))
    ((Operation.onDlcMessage (.sign sampleCountersignMessage) "peer").run sampleManager).run
    (sampleStore (.accepted sampleAccepted))

theorem runs_sampleCountersign (verifies : Bool) :
    Runs (World False)
      ((Operation.onDlcMessage (.sign sampleCountersignMessage) "peer").run sampleManager).run
      (sampleStore (.accepted sampleAccepted)) (sampleCountersign verifies).1
      (sampleCountersign verifies).2.1 (sampleCountersign verifies).2.2 :=
  runs_eval _ (world_serve False _) _ _

/-- A message that does not verify marks its contract. -/
theorem failed_undone_sampleCountersign :
    (sampleCountersign false).2.1.toOption = none ∧
      Undone sampleManager (some (.sign sampleCountersignMessage)) (sampleCountersign false).1
        (sampleStore (.accepted sampleAccepted)) (sampleCountersign false).2.2 :=
  ⟨rfl, (failed_undone_iff rfl (runs_sampleCountersign false)).mpr (by decide +kernel) _ rfl⟩

/-- A failed broadcast leaves the contract stored as signed. -/
theorem not_failed_undone :
    ¬ ∀ (manager : Manager) (operation : Operation), operation.concludes = true →
      ∀ (start final : ContractStore) (steps : List WalletStep)
        (result : Except DlcError Outcome),
        Runs (World False) (operation.run manager).run start steps result final →
        ∀ error, result = .error error →
          Undone manager operation.message? steps start final := by
  intro claimed
  have undone := claimed sampleManager _ rfl _ _ _ _ (runs_sampleCountersign true) _ rfl
  have stored : (sampleCountersign true).2.2.find? sampleAccepted.contractId =
      some (.signed ⟨sampleAccepted, none⟩) := by
    decide +kernel
  exact not_undone_signed
    (by decide +kernel : _ = some (DlcContract.accepted sampleAccepted)) stored undone

end LinkManager

end DlcStack
