import DlcStack.ManagerMessages
import DlcStack.ManagerRuns

/-!
# The life of a contract

Every operation of a manager takes contracts along the transitions of their
life only, each warranted by what the operation was told, as long as no offer is
stored under the temporary identifier of a contract that has already moved on.
-/

namespace DlcStack

namespace LinkManager

open Program

/-- The transitions of a contract, and what must have been reported for those
that a periodic check makes. -/
inductive Follows (manager : Manager) (steps : List WalletStep) :
    DlcContract → DlcContract → Prop
  | accept {accepted : AcceptedContract} :
      Follows manager steps (.offered accepted.offeredContract) (.accepted accepted)
  | sign {signed : SignedContract} :
      Follows manager steps (.offered signed.acceptedContract.offeredContract)
        (.signed signed)
  | failAccept {offered : OfferedContract} {message : AcceptDlc} {text : String} :
      Follows manager steps (.offered offered) (.failedAccept ⟨offered, message, text⟩)
  | reject {offered : OfferedContract} :
      Follows manager steps (.offered offered) (.rejected offered)
  | countersign {signed : SignedContract} :
      Follows manager steps (.accepted signed.acceptedContract) (.signed signed)
  | failSign {accepted : AcceptedContract} {message : SignDlc} {text : String} :
      Follows manager steps (.accepted accepted) (.failedSign ⟨accepted, message, text⟩)
  | checked {source target : DlcContract}
      (warranted : Warranted manager steps source target) :
      Follows manager steps source target

/-- One record is replaced by another, under the same or a free identifier, and
no other record is touched. -/
structure Replaces (before : ContractStore) (source target : DlcContract)
    (after : ContractStore) : Prop where
  stored : before.find? source.getId = some source
  sameOrFree : target.getId = source.getId ∨ before.find? target.getId = none
  effect : ∀ id, after.find? id =
    if id = target.getId then some target
    else if id = source.getId then none
    else before.find? id

/-- A step leaves the records alone, adds an offer under a free identifier, or
takes one contract along a transition. -/
inductive Lawful (manager : Manager) (past : List WalletStep) (step : WalletStep) :
    Prop
  | unchanged (same : step.after = step.before)
  | offers {offer : OfferedContract} (free : step.before.find? offer.id = none)
      (adds : ∀ id, step.after.find? id =
        if id = offer.id then some (.offered offer) else step.before.find? id)
  | moves {source target : DlcContract} (follows : Follows manager past source target)
      (replaces : Replaces step.before source target step.after)

/-- An offer that is stored has not the temporary identifier of a stored
contract. -/
def offerIsNew (step : WalletStep) : Bool :=
  match step.request with
  | .createContract offer =>
      step.before.rows.all fun contract => contract.getTemporaryId ≠ offer.id
  | _ => true

/-- No contract is stored under the temporary identifier of another. -/
def NoClash (store : ContractStore) : Prop :=
  ∀ contract other, store.find? contract.getId = some contract →
    store.find? contract.getTemporaryId = some other → other = contract

/-! ## Writes -/

/-- A contract under a free identifier that no other contract had before. -/
theorem NoClash.create {before after : ContractStore} {offer : OfferedContract}
    (noClash : NoClash before)
    (new : ∀ contract ∈ before.rows, contract.getTemporaryId ≠ offer.id)
    (created : before.createContract offer = some after) : NoClash after := by
  intro contract other found clash
  rw [ContractStore.find?_createContract created] at found clash
  by_cases same : contract.getId = offer.id
  · rw [if_pos same] at found
    obtain rfl := Option.some.inj found
    rw [if_pos (show (DlcContract.offered offer).getTemporaryId = offer.id from rfl)]
      at clash
    exact (Option.some.inj clash).symm
  · rw [if_neg same] at found
    rw [if_neg (new contract (UniqueTable.mem_rows_iff.mpr found))] at clash
    exact noClash contract other found clash

/-- The identifiers that a transition may give to a contract: its own, or a fresh
one when it leaves its temporary identifier. -/
def KeepsId (store : ContractStore) (source target : DlcContract) : Prop :=
  target.getId = source.getId ∨
    source.getId = source.getTemporaryId ∧ target.isMoved = true ∧
      Fresh store target.getId

theorem NoClash.replace {before after : ContractStore} {source target : DlcContract}
    (noClash : NoClash before) (replaces : Replaces before source target after)
    (sameTemporary : target.getTemporaryId = source.getTemporaryId)
    (keepsId : KeepsId before source target) : NoClash after := by
  obtain ⟨stored, _, effect⟩ := replaces
  -- no other contract has the identifier that the target gets
  have unclaimed (contract : DlcContract)
      (found : before.find? contract.getId = some contract)
      (different : contract.getId ≠ source.getId) :
      contract.getTemporaryId ≠ target.getId := by
    intro same
    rcases keepsId with sameId | ⟨_, _, fresh⟩
    · rw [sameId] at same
      exact different (congrArg DlcContract.getId
        (noClash contract source found (same ▸ stored))).symm
    · exact (fresh contract (UniqueTable.mem_rows_iff.mpr found)).2 same
  intro contract other found clash
  rw [effect] at found clash
  by_cases isTarget : contract.getId = target.getId
  · rw [if_pos isTarget] at found
    obtain rfl := Option.some.inj found
    rw [sameTemporary] at clash
    split_ifs at clash with sameId sameSource
    · exact (Option.some.inj clash).symm
    · have same := noClash source other stored clash
      subst same
      exact absurd (UniqueTable.find?_eq_some_iff.mp clash).2.symm sameSource
  · rw [if_neg isTarget] at found
    split_ifs at found with isSource
    rw [if_neg (unclaimed contract found isSource)] at clash
    split_ifs at clash
    exact noClash contract other found clash

/-- The effect of an update that takes a contract along. -/
theorem replaces_of_update {before after : ContractStore} {source target : DlcContract}
    (noClash : NoClash before)
    (stored : before.find? source.getId = some source)
    (sameTemporary : target.getTemporaryId = source.getTemporaryId)
    (keepsId : KeepsId before source target)
    (updated : before.updateContract target = some after) :
    Replaces before source target after := by
  have sameOrFree : target.getId = source.getId ∨ before.find? target.getId = none := by
    rcases keepsId with sameId | ⟨_, _, fresh⟩
    · exact .inl sameId
    · exact .inr (UniqueTable.find?_eq_none_iff.mpr fun contract member =>
        (fresh contract member).1)
  refine ⟨stored, sameOrFree, fun id => ?_⟩
  rw [ContractStore.find?_updateContract updated, sameTemporary]
  by_cases isTarget : id = target.getId
  · simp [isTarget]
  · rw [if_neg isTarget, if_neg isTarget]
    rcases keepsId with sameId | ⟨atTemporary, moved, _⟩
    · rw [← sameId, if_neg isTarget]
      split_ifs with erased
      · -- the erased record would be one under the temporary identifier
        cases clash : before.find? id with
        | none => rfl
        | some other =>
            rw [erased.2] at clash
            obtain rfl := noClash source other stored clash
            have same := (UniqueTable.find?_eq_some_iff.mp clash).2
            exact absurd (erased.2.trans (same.symm.trans sameId.symm)) isTarget
      · rfl
    · rw [← atTemporary]
      simp [moved]

/-! ## Operations -/

/-- The program makes lawful steps only when it runs alone from this store, as
long as the offers it stores are new, and leaves identifiers that do not clash. -/
def Keeps {α : Type} (manager : Manager) (past : List WalletStep)
    (store : ContractStore) (program : ManagerM α) : Prop :=
  Always ((World False).restrict (offerIsNew · = true)) Eq (Lawful manager)
    (fun _ _ store => NoClash store) past store program.run

section Rules

variable {manager : Manager} {past : List WalletStep} {store : ContractStore}
  {α β : Type}

theorem Keeps.bind {program : ManagerM α} {rest : α → ManagerM β}
    (keeps : Keeps manager past store program)
    (later : ∀ value past store, NoClash store →
      Keeps manager past store (rest value)) :
    Keeps manager past store (program >>= rest) := by
  refine (always_run_bind _ _).mpr (keeps.post_mono ?_)
  intro past result store noClash
  cases result with
  | ok value => exact later value past store noClash
  | error error => exact noClash

theorem Keeps.map {program : ManagerM α} (keeps : Keeps manager past store program)
    (change : α → β) : Keeps manager past store (change <$> program) := by
  rw [map_eq_pure_bind]
  exact keeps.bind fun _ _ _ noClash => noClash

/-- The rule of a request that reads. -/
theorem keeps_read {request : WalletRequest} {rest : request.Reply → ManagerM α}
    (reads : request.isWrite = false) (noClash : NoClash store)
    (replied : ∀ reply past, World False store request (.ok reply) store →
      Keeps manager past store (rest reply)) :
    Keeps manager past store (ask request >>= rest) := by
  refine always_ask_bind fun before moved answer after served => ?_
  obtain rfl := moved
  obtain rfl := served.1.unchanged reads
  refine ⟨.unchanged rfl, ?_⟩
  cases answer with
  | ok reply => exact replied reply _ served.1
  | error error => exact noClash

/-- The rule of a request whose failure the program handles. -/
theorem keeps_try {request : WalletRequest}
    {rest : Except DlcError request.Reply → ManagerM α}
    (reads : request.isWrite = false)
    (answered : ∀ answer past, World False store request answer store →
      Keeps manager past store (rest answer)) :
    Keeps manager past store (ExceptT.lift (ask request).run >>= rest) := by
  refine (always_run_lift_bind _ _).mpr ((always_ask _ _).mpr ?_)
  intro before moved answer after served
  obtain rfl := moved
  obtain rfl := served.1.unchanged reads
  exact ⟨.unchanged rfl, answered answer _ served.1⟩

/-- The rule of an update that takes a stored contract along. -/
theorem keeps_update {source target : DlcContract} {rest : Unit → ManagerM α}
    (noClash : NoClash store) (stored : store.find? source.getId = some source)
    (follows : ∀ past, Follows manager past source target)
    (sameTemporary : target.getTemporaryId = source.getTemporaryId)
    (keepsId : KeepsId store source target)
    (updated : ∀ past after, NoClash after → Keeps manager past after (rest ())) :
    Keeps manager past store (ask (.updateContract target) >>= rest) := by
  refine always_ask_bind fun before moved answer after served => ?_
  obtain rfl := moved
  rcases served.1 with ⟨rfl, effect⟩ | ⟨⟨error, rfl⟩, rfl | ⟨none, _⟩⟩
  · have replaces := replaces_of_update noClash stored sameTemporary keepsId effect
    exact ⟨.moves (follows past) replaces,
      updated _ after (noClash.replace replaces sameTemporary keepsId)⟩
  · exact ⟨.unchanged rfl, noClash⟩
  · exact none.elim

/-- The rule of a new offer. -/
theorem keeps_create {offer : OfferedContract} {rest : Unit → ManagerM α}
    (noClash : NoClash store)
    (created : ∀ past after, NoClash after → Keeps manager past after (rest ())) :
    Keeps manager past store (ask (.createContract offer) >>= rest) := by
  refine always_ask_bind fun before moved answer after served => ?_
  obtain rfl := moved
  obtain ⟨served, new⟩ := served
  rcases served with ⟨rfl, effect⟩ | ⟨⟨error, rfl⟩, rfl | ⟨none, _⟩⟩
  · refine ⟨.offers (UniqueTable.insert_eq_some_iff.mp effect).1
      (ContractStore.find?_createContract effect), ?_⟩
    refine created _ after (noClash.create (fun contract member => ?_) effect)
    exact of_decide_eq_true (List.all_eq_true.mp new contract member)
  · exact ⟨.unchanged rfl, noClash⟩
  · exact none.elim

/-- The last request of a program. -/
theorem keeps_last {request : WalletRequest}
    (keeps : Keeps manager past store (ask request >>= fun reply => return reply)) :
    Keeps manager past store (ask request) := by
  rwa [bind_pure] at keeps

/-- The rule of reading a contract in a state. -/
theorem keeps_getContractInState {id : ContractId} {inState : DlcContract → Option β}
    {state : String} {peer : Option PublicKey} {rest : β → ManagerM α}
    (noClash : NoClash store)
    (found : ∀ contract value past, store.find? contract.getId = some contract →
      inState contract = some value → Keeps manager past store (rest value)) :
    Keeps manager past store
      (getContractInState manager id inState state peer >>= rest) := by
  unfold getContractInState
  rw [bind_assoc]
  refine keeps_read rfl noClash fun reply past served => ?_
  cases reply with
  | none => exact noClash
  | some contract =>
      dsimp only
      split_ifs with stranger
      · exact noClash
      · cases inHand : inState contract with
        | none => exact noClash
        | some value =>
            refine found contract value past ?_ inHand
            have same := (served.2 _ rfl).symm
            rw [(UniqueTable.find?_eq_some_iff.mp same).2]
            exact same

/-- A program that only reads: it leaves the store to what follows. -/
def OnlyReads (manager : Manager) (program : ManagerM β) : Prop :=
  ∀ past store, NoClash store → ∀ (α : Type) (rest : β → ManagerM α),
    (∀ value past, Keeps manager past store (rest value)) →
      Keeps manager past store (program >>= rest)

theorem onlyReads_ask (request : WalletRequest) (reads : request.isWrite = false) :
    OnlyReads manager (ask request) :=
  fun _ _ noClash _ _ keeps => keeps_read reads noClash fun reply past _ => keeps reply past

theorem onlyReads_mapM {γ : Type} {program : γ → ManagerM β} (elements : List γ)
    (each : ∀ element, OnlyReads manager (program element)) :
    OnlyReads manager (elements.mapM program) := by
  intro past store noClash α rest keeps
  induction elements generalizing past rest with
  | nil =>
      rw [List.mapM_nil, pure_bind]
      exact keeps [] past
  | cons element elements ih =>
      rw [List.mapM_cons, bind_assoc]
      refine each element past store noClash _ _ fun value past => ?_
      rw [bind_assoc]
      refine ih past _ fun values past => ?_
      rw [pure_bind]
      exact keeps (value :: values) past

theorem keeps_sendOffer (noClash : NoClash store) (contractInput : ContractInput)
    (counterParty : PublicKey) (refundDelay : Nat) (protocolFeeBasisPoints : UInt64)
    (feeAddress : String) :
    Keeps manager past store (sendOffer manager contractInput counterParty refundDelay
      protocolFeeBasisPoints feeAddress) := by
  unfold sendOffer
  cases manager.oracles with
  | none => exact noClash
  | some oracles =>
      refine keeps_read rfl noClash fun _ past _ => ?_
      cases contractInput.contractInfos.head? with
      | none => exact noClash
      | some first =>
          dsimp only
          split_ifs
          · refine onlyReads_mapM _ (fun info => onlyReads_mapM _ fun key =>
              onlyReads_ask (.getAnnouncement key first.oracles.eventId) rfl) _ _ noClash _ _
                fun announcements past => ?_
            refine keeps_read rfl noClash fun offered past _ => ?_
            refine keeps_read rfl noClash fun _ past _ => ?_
            exact keeps_create noClash fun past after noClash => noClash
          · exact noClash

theorem keeps_onOfferMessage (noClash : NoClash store) (message : OfferDlc)
    (counterParty : PublicKey) :
    Keeps manager past store (onOfferMessage message counterParty) := by
  refine keeps_read rfl noClash fun _ past _ => ?_
  refine keeps_read rfl noClash fun contract past _ => ?_
  refine keeps_read rfl noClash fun _ past _ => ?_
  refine keeps_read rfl noClash fun found past _ => ?_
  cases found with
  | some other => exact noClash
  | none => exact keeps_last (keeps_create noClash fun _ _ noClash => noClash)

theorem keeps_acceptContractOffer (noClash : NoClash store) (contractId : ContractId) :
    Keeps manager past store (acceptContractOffer manager contractId) := by
  refine keeps_getContractInState noClash fun contract offered past stored found => ?_
  obtain rfl := DlcContract.eq_offered_of_offered? found
  refine keeps_read rfl noClash fun reply past served => ?_
  obtain ⟨accepted, message⟩ := reply
  obtain ⟨rfl, fresh⟩ := served.2 accepted message rfl
  refine keeps_read rfl noClash fun network past _ => ?_
  refine keeps_read rfl noClash fun _ past _ => ?_
  exact keeps_update noClash stored (fun _ => .accept) rfl (.inr ⟨rfl, rfl, fresh⟩)
    fun past after noClash => noClash

theorem keeps_onAcceptMessage (noClash : NoClash store) (message : AcceptDlc)
    (counterParty : PublicKey) :
    Keeps manager past store (onAcceptMessage manager message counterParty) := by
  refine keeps_getContractInState noClash fun contract offered past stored found => ?_
  obtain rfl := DlcContract.eq_offered_of_offered? found
  refine keeps_try rfl fun answer past served => ?_
  cases answer with
  | error error =>
      exact keeps_update noClash stored (fun _ => .failAccept) rfl (.inl rfl)
        fun past after noClash => noClash
  | ok reply =>
      obtain ⟨signed, signMessage⟩ := reply
      obtain ⟨rfl, fresh⟩ := served.2 signed signMessage rfl
      refine keeps_read rfl noClash fun network past _ => ?_
      refine keeps_read rfl noClash fun _ past _ => ?_
      exact keeps_update noClash stored (fun _ => .sign) rfl (.inr ⟨rfl, rfl, fresh⟩)
        fun past after noClash => noClash

theorem keeps_onSignMessage (noClash : NoClash store) (message : SignDlc)
    (peer : PublicKey) :
    Keeps manager past store (onSignMessage manager message peer) := by
  refine keeps_getContractInState noClash fun contract accepted past stored found => ?_
  obtain rfl : contract = .accepted accepted := by
    cases contract <;> cases found
    rfl
  refine keeps_try rfl fun answer past served => ?_
  cases answer with
  | error error =>
      exact keeps_update noClash stored (fun _ => .failSign) rfl (.inl rfl)
        fun past after noClash => noClash
  | ok reply =>
      obtain ⟨signed, fundTx⟩ := reply
      obtain rfl := served.2 signed fundTx rfl
      refine keeps_update noClash stored (fun _ => .countersign) rfl (.inl rfl)
        fun past after noClash => ?_
      exact keeps_last (keeps_read rfl noClash fun _ _ _ => noClash)

theorem keeps_rejectOffer (noClash : NoClash store) (contractId : String) :
    Keeps manager past store (rejectOffer contractId) := by
  unfold rejectOffer
  cases readContractId contractId with
  | none => exact noClash
  | some id =>
      refine keeps_read rfl noClash fun found past served => ?_
      split
      · rename_i offered
        have found := (served.2 _ rfl).symm
        have stored : store.find? (DlcContract.offered offered).getId =
            some (.offered offered) := by
          rw [(UniqueTable.find?_eq_some_iff.mp found).2]
          exact found
        exact keeps_last (keeps_update noClash stored (fun _ => .reject) rfl (.inl rfl)
          fun past after noClash => noClash)
      · exact noClash

theorem keeps_onDlcMessage (noClash : NoClash store) (message : DlcMessage)
    (counterParty : PublicKey) :
    Keeps manager past store (onDlcMessage manager message counterParty) := by
  cases message with
  | offer message =>
      exact (keeps_onOfferMessage noClash message counterParty).bind
        fun _ _ _ noClash => noClash
  | accept message =>
      exact (keeps_onAcceptMessage noClash message counterParty).bind
        fun _ _ _ noClash => noClash
  | sign message =>
      exact (keeps_onSignMessage noClash message counterParty).bind
        fun _ _ _ noClash => noClash
  | other => exact noClash

end Rules

/-! ## Periodic checks -/

/-- A check of one contract, as one update of the record that it finds. -/
theorem lawful_check {manager : Manager} {check : Check} {start final : ContractStore}
    (noClash : NoClash start) (run : CheckRun False manager check start final) :
    NoClash final ∧ EachStep (Lawful manager) check.steps := by
  have reads {steps : List WalletStep} {store : ContractStore}
      (linked : Linked (World False) start steps store)
      (none : ∀ step ∈ steps, step.request.isWrite = false) :
      EachStep (Lawful manager) steps := by
    intro front step back split
    have member : step ∈ steps := by simp [split]
    obtain ⟨_, same⟩ := linked.unchanged fun other otherMem served =>
      served.unchanged (none other otherMem)
    exact .unchanged ((same step member).2.trans (same step member).1.symm)
  have linked := run.linked
  rcases run.outcome with
    ⟨rfl, _, idle⟩ | ⟨front, target, answer, split, prepares, warranted, written, _⟩
  · exact ⟨noClash, reads linked fun step member => (idle_requests idle step member).1⟩
  · rw [split] at linked ⊢
    obtain ⟨middle, first, last⟩ := linked_append.mp linked
    have early := reads first fun step member => (prepares.requests step member).1
    obtain ⟨sameId, sameTemporary, _⟩ := warranted.ids
    rcases written with ⟨rfl, effect⟩ | ⟨_, rfl | ⟨none, _⟩⟩
    · have replaces := replaces_of_update noClash run.stored sameTemporary (.inl sameId)
        effect
      exact ⟨noClash.replace replaces sameTemporary (.inl sameId),
        eachStep_snoc.mpr ⟨early, .moves (.checked warranted) replaces⟩⟩
    · exact ⟨noClash, eachStep_snoc.mpr ⟨early, .unchanged rfl⟩⟩
    · exact none.elim

theorem Lawful.prepend {manager : Manager} {past : List WalletStep} {step : WalletStep}
    (lawful : Lawful manager past step) (earlier : List WalletStep) :
    Lawful manager (earlier ++ past) step := by
  cases lawful with
  | unchanged same => exact .unchanged same
  | offers free adds => exact .offers free adds
  | moves follows replaces =>
      refine .moves ?_ replaces
      cases follows with
      | checked warranted => exact .checked (warranted.prepend earlier)
      | accept => exact .accept
      | sign => exact .sign
      | failAccept => exact .failAccept
      | reject => exact .reject
      | countersign => exact .countersign
      | failSign => exact .failSign

theorem lawful_periodicCheck {manager : Manager} {start final : ContractStore}
    {steps : List WalletStep} {result : Except DlcError (List Report)}
    (noClash : NoClash start)
    (run : Runs (World False) (periodicCheck manager).run start steps result final) :
    NoClash final ∧ EachStep (Lawful manager) steps := by
  have initially : NoClash start ∧ EachStep (Lawful manager) [] :=
    ⟨noClash, eachStep_nil⟩
  have kept := (runs_periodicCheck run).invariant
    (fun past store => NoClash store ∧ EachStep (Lawful manager) past) ?_ ?_ (by decide)
    initially
  · simpa using kept
  · rintro past store listing answer _ ⟨noClash, each⟩
    exact ⟨noClash, eachStep_snoc.mpr ⟨each, .unchanged rfl⟩⟩
  · rintro past check start final ⟨noClash, each⟩ run
    obtain ⟨noClash, checked⟩ := lawful_check noClash run
    refine ⟨noClash, eachStep_append.mpr ⟨each, ?_⟩⟩
    intro front step back split
    exact (checked front step back split).prepend past

/-! ## Runs -/

/-- One operation that stores new offers only. -/
theorem lawful_operation {manager : Manager} {operation : Operation}
    {start final : ContractStore} {steps : List WalletStep}
    {result : Except DlcError Outcome}
    (new : ∀ step ∈ steps, offerIsNew step = true) (noClash : NoClash start)
    (run : Runs (World False) (operation.run manager).run start steps result final) :
    NoClash final ∧ EachStep (Lawful manager) steps := by
  have keeps {α : Type} {program : ManagerM α} {change : α → Outcome}
      (keeps : Keeps manager [] start program)
      (run : Runs (World False) (change <$> program).run start steps result final) :
      NoClash final ∧ EachStep (Lawful manager) steps := by
    obtain ⟨each, noClash⟩ := (keeps.map change).of_runs (run.restrict new)
    exact ⟨noClash, by simpa [EachStep] using each⟩
  cases operation with
  | sendOffer contractInput counterParty refundDelay basisPoints feeAddress =>
      exact keeps (keeps_sendOffer noClash contractInput counterParty refundDelay
        basisPoints feeAddress) run
  | onDlcMessage message counterParty =>
      exact keeps (keeps_onDlcMessage noClash message counterParty) run
  | acceptContractOffer contractId =>
      exact keeps (keeps_acceptContractOffer noClash contractId) run
  | rejectOffer contractId => exact keeps (keeps_rejectOffer noClash contractId) run
  | periodicCheck =>
      change Runs (World False) (Outcome.affected <$> periodicCheck manager).run start
        steps result final at run
      rw [map_eq_pure_bind] at run
      rcases runs_run_bind _ _ run with
        ⟨error, failed, rfl⟩ | ⟨found, middle, front, back, ended, returned, rfl⟩
      · exact lawful_periodicCheck noClash failed
      · obtain ⟨rfl, rfl, rfl⟩ := returned
        simpa using lawful_periodicCheck noClash ended

theorem noClash_empty : NoClash UniqueTable.empty := by
  intro contract other found
  cases found

/-- In every run of operations that stores new offers only, every step takes
contracts along the transitions of their life. -/
theorem operations_lawful {manager : Manager} {final : ContractStore}
    {sessions : List (Session Operation ContractStore WalletRequest WalletRequest.Answer
      (Except DlcError Outcome))}
    (runs : RunsEach (World False) (fun operation => (operation.run manager).run)
      UniqueTable.empty sessions final)
    (new : ∀ session ∈ sessions, ∀ step ∈ session.steps, offerIsNew step = true) :
    ∀ session ∈ sessions, EachStep (Lawful manager) session.steps := by
  refine (runs.each NoClash (fun session => ∀ step ∈ session.steps, offerIsNew step = true)
    (fun session => EachStep (Lawful manager) session.steps) ?_ new noClash_empty).2
  intro session state after new noClash run
  exact lawful_operation new noClash run

/-! ## An offer that arrives twice -/

/-- The other party and the crate, agreeing to everything. -/
def samplePeer : Others where
  down _ := false
  answers
    | .validateOffer .. => .ok ()
    | .tryFromOfferDlc message counterParty =>
        .ok ⟨message.temporaryContractId, message.contractInfo, counterParty⟩
    | .validateOfferedContract _ => .ok ()
    | .acceptContract contract =>
        .ok ((sampleSigned contract.id (.replicate 32 2)).acceptedContract, ⟨contract.id⟩)
    | .getNetwork => .ok "regtest"
    | .importAddress .. => .ok ()
    | .verifySignedContract contract _ =>
        .ok (⟨contract, none⟩, contract.dlcTransactions.fund)
    | .sendTransaction _ => .ok ()
    | _ => .error (.ioError "not answered")

/-- The offer whose temporary identifier is the text of 32 letters. -/
def sampleOfferMessage : Operation :=
  .onDlcMessage (.offer ⟨.replicate 32 97, (sampleOffer (.replicate 32 97)).contractInfo⟩)
    "peer"

def sampleSignMessage : Operation :=
  .onDlcMessage (.sign ⟨.replicate 32 2⟩) "peer"

def sampleOperations (operations : List Operation) :
    List (Session Operation ContractStore WalletRequest WalletRequest.Answer
      (Except DlcError Outcome)) :=
  (evalEach (serve samplePeer) (fun operation => (operation.run sampleManager).run)
    operations UniqueTable.empty).1

theorem runs_sampleOperations (operations : List Operation) :
    ∃ final, RunsEach (World False)
      (fun operation : Operation => (operation.run sampleManager).run) UniqueTable.empty
      (sampleOperations operations) final :=
  ⟨_, runsEach_evalEach _ (world_serve False _) _ _ _⟩

/-- An offer that is accepted and signed. -/
def sampleAgreement : List Operation :=
  [sampleOfferMessage, .acceptContractOffer (.replicate 32 97), sampleSignMessage]

theorem operations_lawful_sampleAgreement :
    EachStep (Lawful sampleManager)
      ((sampleOperations sampleAgreement).get ⟨2, by decide⟩).steps := by
  obtain ⟨final, runs⟩ := runs_sampleOperations sampleAgreement
  exact operations_lawful runs (by decide) _ (List.get_mem _ _)

/-- The offer is accepted, arrives again and is rejected before the signature of
the accepted contract comes in. -/
def sampleReplay : List Operation :=
  [sampleOfferMessage, .acceptContractOffer (.replicate 32 97), sampleOfferMessage,
    .rejectOffer "aaaaaaaaaaaaaaaaaaaaaaaaaaaaaaaa", sampleSignMessage]

/-- A rejected contract stays as it is along lawful steps. -/
theorem Lawful.rejected_stays {manager : Manager} {past : List WalletStep}
    {step : WalletStep} (lawful : Lawful manager past step) {id : ContractId}
    {offer : OfferedContract} (found : step.before.find? id = some (.rejected offer)) :
    step.after.find? id = some (.rejected offer) := by
  cases lawful with
  | unchanged same => rw [same, found]
  | @offers other free adds =>
      rw [adds]
      split_ifs with same
      · rw [same, free] at found
        cases found
      · exact found
  | @moves source target follows replaces =>
      have different : id ≠ source.getId := by
        rintro rfl
        rw [replaces.stored] at found
        obtain rfl := Option.some.inj found
        cases follows with
        | checked warranted => cases warranted
      have other : id ≠ target.getId := by
        rintro rfl
        rcases replaces.sameOrFree with same | free
        · exact different same
        · rw [free] at found
          cases found
      rw [replaces.effect, if_neg other, if_neg different, found]

/-- The rejected contract vanishes when the accepted one is signed. -/
theorem operations_not_lawful :
    ¬ ∀ (manager : Manager) (final : ContractStore)
      (sessions : List (Session Operation ContractStore WalletRequest
        WalletRequest.Answer (Except DlcError Outcome))),
      RunsEach (World False) (fun operation => (operation.run manager).run)
        UniqueTable.empty sessions final →
      ∀ session ∈ sessions, EachStep (Lawful manager) session.steps := by
  intro always
  obtain ⟨final, runs⟩ := runs_sampleOperations sampleReplay
  have lawful := always _ _ _ runs ((sampleOperations sampleReplay).get ⟨4, by decide⟩)
    (List.get_mem _ _) _ _ _ (split_get _ ⟨2, by decide⟩)
  have rejected : ((sampleOperations sampleReplay).get ⟨4, by decide⟩
      |>.steps.get ⟨2, by decide⟩).before.find? (.replicate 32 97) =
        some (.rejected (sampleOffer (.replicate 32 97))) := by decide
  exact absurd (lawful.rejected_stays rejected) (by decide)

end LinkManager

end DlcStack
