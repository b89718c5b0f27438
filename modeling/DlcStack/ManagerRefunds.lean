import DlcStack.ManagerRecords

/-!
# When a refund is decided

The check of a confirmed contract turns to the refund exactly when the look-up of the
attestations gives nothing to close.  A look-up that failed is one of them: an attestation
that could not be fetched counts as one that is not published.
-/

namespace DlcStack

namespace LinkManager

open Program

/-! ## Closing or refunding -/

/-- The requests of closing: no other is made once a contract info can be closed. -/
def ofClosing : WalletRequest → Bool
  | .getSignedCet .. => true
  | .getTransactionConfirmations _ => true
  | .sendTransaction _ => true
  | .updateContract _ => true
  | _ => false

/-- What is found to close has attestations enough. -/
theorem enough_of_getClosableContractInfo {repliesLost : Prop} {manager : Manager}
    {contract : SignedContract} {start final : ContractStore} {steps : List WalletStep}
    {info : ContractInfo} {adaptor : AdaptorInfo} {attestations : List (Nat × OracleAttestation)}
    (run : Runs (World repliesLost) (getClosableContractInfo manager contract).run start steps
      (.ok (some (info, adaptor, attestations))) final) :
    info.threshold ≤ attestations.length := by
  have always : Always (World repliesLost) (fun _ _ => True)
      (Orderly manager (.confirmed contract)) _ [] start
      (getClosableContractInfo manager contract).run :=
    always_getClosableContractInfo contract inquiries_nil
  have holds := ((always.rely_mono fun _ _ _ => trivial).of_runs run).2
  exact (holds.2 info adaptor attestations rfl).2.enough

/-- How a check goes on after its look-up: it decides on the refund exactly if nothing was
found to close.  A contract info to close has attestations enough; if no CET can be made of
them, the check ends there. -/
structure GoesOn (contract : SignedContract) (start : ContractStore)
    (steps : List WalletStep) (result : Except DlcError Bool) (final : ContractStore)
    (front : List WalletStep)
    (found : Except DlcError
      (Option (ContractInfo × AdaptorInfo × List (Nat × OracleAttestation))))
    (back : List WalletStep) : Prop where
  split : steps = front ++ back
  looks : ∀ step ∈ front, ∃ oracle eventId, step.request = .getAttestation oracle eventId
  refunds : (∃ step ∈ steps, step.request = .getUnixtime) ↔
    ∀ closable, found ≠ .ok (some closable)
  closes : ∀ info adaptor attestations, found = .ok (some (info, adaptor, attestations)) →
    info.threshold ≤ attestations.length ∧
    ∃ answer later,
      back = ⟨start, .getSignedCet contract info adaptor attestations, answer, start⟩ ::
        later ∧
      ∀ error, answer = .error error → result = .error error ∧ later = [] ∧ final = start

/-- A check of a confirmed contract decides on the refund exactly if its look-up gives
nothing to close. -/
theorem checkConfirmedContract_goesOn {repliesLost : Prop} {manager : Manager}
    {contract : SignedContract} {start final : ContractStore} {steps : List WalletStep}
    {result : Except DlcError Bool}
    (run : Runs (World repliesLost) (checkConfirmedContract manager contract).run start steps
      result final) :
    ∃ front found back,
      Runs (World repliesLost) (getClosableContractInfo manager contract).run start front
        found start ∧
      GoesOn contract start steps result final front found back := by
  obtain ⟨found, middle, front, back, looked, decided, rfl⟩ := (runs_run_lift_bind _ _).mp run
  have asks := (asks_getClosableContractInfo manager contract).of_runs looked
  have looks (step : WalletStep) (member : step ∈ front) : step.request ≠ .getUnixtime := by
    obtain ⟨oracle, eventId, request⟩ := asks step member
    simp [request]
  obtain rfl := linked_reads looked.linked fun step member => by
    obtain ⟨oracle, eventId, request⟩ := asks step member
    rw [request]
    rfl
  refine ⟨front, found, back, looked, ⟨rfl, asks, ?_, ?_⟩⟩
  · constructor
    · rintro ⟨step, member, request⟩ ⟨info, adaptor, attestations⟩ rfl
      rcases List.mem_append.mp member with member | member
      · exact looks step member request
      · have closing : Asks (ofClosing · = true) (do
            let cet ← ask (.getSignedCet contract info adaptor attestations)
            let closed ← closeContract manager contract cet (attestations.map Prod.snd)
            let _ ← ask (.updateContract closed)
            return true : ManagerM Bool).run :=
          asks_run_bind (asks_perform rfl) fun cet =>
            asks_closeContract_bind _ _ _ _ rfl rfl
              (asks_run_bind (asks_perform rfl) fun _ => asks_pure _)
              (asks_run_bind (asks_perform rfl) fun _ => asks_pure _)
        have closes := closing.of_runs decided step member
        rw [request] at closes
        cases closes
    · intro nothing
      have refunds : ∃ step ∈ back, step.request = .getUnixtime := by
        rcases found with error | - | closable
        · obtain ⟨answer, after, later, served, rfl, decided⟩ := decided
          exact ⟨_, List.mem_cons_self, rfl⟩
        · obtain ⟨answer, after, later, served, rfl, decided⟩ := decided
          exact ⟨_, List.mem_cons_self, rfl⟩
        · exact absurd rfl (nothing closable)
      obtain ⟨step, member, request⟩ := refunds
      exact ⟨step, List.mem_append_right _ member, request⟩
  · rintro info adaptor attestations rfl
    refine ⟨enough_of_getClosableContractInfo looked, ?_⟩
    obtain ⟨answer, after, later, served, rfl, decided⟩ := decided
    obtain rfl := served.unchanged rfl
    refine ⟨answer, later, rfl, ?_⟩
    rintro error rfl
    obtain ⟨rfl, rfl, rfl⟩ := decided
    exact ⟨rfl, rfl, rfl⟩

/-- A confirmed contract with a refund lock time that passes. -/
def sampleLapsed : SignedContract :=
  ⟨⟨sampleOffer (.replicate 32 1), [.enum], ⟨⟨"fund", 0⟩, ⟨"refund", 100⟩, "script"⟩,
    .replicate 32 2⟩, none⟩

/-- Others with an attestation of which no CET can be made. -/
def faultyOthers : Others where
  down _ := false
  answers
    | .getSignedCet .. => .error (.invalidState "signature")
    | request => (sampleOthers (fun _ => 0) true 200 fun _ => false).answers request

def sampleFaulty : List WalletStep × Except DlcError Bool × ContractStore :=
  eval (serve faultyOthers) (checkConfirmedContract sampleManager sampleLapsed).run
    (sampleStore (.confirmed sampleLapsed))

theorem runs_sampleFaulty :
    Runs (World False) (checkConfirmedContract sampleManager sampleLapsed).run
      (sampleStore (.confirmed sampleLapsed)) sampleFaulty.1 sampleFaulty.2.1
      sampleFaulty.2.2 :=
  runs_eval _ (world_serve False _) _ _

theorem checkConfirmedContract_goesOn_sampleFaulty :
    ∃ front found back,
      Runs (World False) (getClosableContractInfo sampleManager sampleLapsed).run
        (sampleStore (.confirmed sampleLapsed)) front found
        (sampleStore (.confirmed sampleLapsed)) ∧
      GoesOn sampleLapsed (sampleStore (.confirmed sampleLapsed)) sampleFaulty.1
        sampleFaulty.2.1 sampleFaulty.2.2 front found back :=
  checkConfirmedContract_goesOn runs_sampleFaulty

/-- The step fails to make a CET. -/
def failsCet (step : WalletStep) : Bool :=
  match step.request with
  | .getSignedCet .. => failed step
  | _ => false

/-- A check that fails to make a CET does not decide on the refund, though the clock is past
the refund lock time. -/
theorem not_checkConfirmedContract_refunds :
    ¬ ∀ (manager : Manager) (contract : SignedContract) (others : Others) (unixtime : Nat)
        (start final : ContractStore) (steps : List WalletStep) (result : Except DlcError Bool),
        start.find? contract.acceptedContract.contractId = some (.confirmed contract) →
        others.answers .getUnixtime = .ok unixtime →
        contract.acceptedContract.dlcTransactions.refund.lockTime ≤ unixtime →
        eval (serve others) (checkConfirmedContract manager contract).run start =
          (steps, result, final) →
        (∃ step ∈ steps, failsCet step = true) →
        ∃ step ∈ steps, step.request = .getUnixtime := by
  intro claimed
  have decides := claimed sampleManager sampleLapsed faultyOthers 200
    (sampleStore (.confirmed sampleLapsed)) sampleFaulty.2.2 sampleFaulty.1 sampleFaulty.2.1
    (by decide +kernel) rfl (by decide) rfl (by decide +kernel)
  exact absurd decides (by decide +kernel)

/-! ## Attestations that are not fetched -/

/-- The request is for the refund of the contract, or records it. -/
def asksForRefund (contract : SignedContract) : WalletRequest → Bool
  | .getSignedRefund other => other = contract
  | .updateContract (.refunded other) => other = contract
  | _ => false

/-- The transaction that the step gives as the signed refund of the contract. -/
def signedRefund? (contract : SignedContract) (step : WalletStep) : Option Transaction :=
  match step with
  | ⟨_, .getSignedRefund other, .ok transaction, _⟩ =>
      if other = contract then some transaction else none
  | _ => none

/-- The request broadcasts a refund of the contract that these steps gave. -/
def broadcastsRefund (contract : SignedContract) (steps : List WalletStep) :
    WalletRequest → Bool
  | .sendTransaction transaction => transaction ∈ steps.filterMap (signedRefund? contract)
  | _ => false

/-- The request is for the refund of the contract, broadcasts it, or records it. -/
def refunds (contract : SignedContract) (steps : List WalletStep) (request : WalletRequest) :
    Bool :=
  asksForRefund contract request || broadcastsRefund contract steps request

/-- What is not asked for is not broadcast. -/
theorem refunds_of_silent {contract : SignedContract} {steps : List WalletStep}
    (silent : ∀ step ∈ steps, asksForRefund contract step.request = false)
    {step : WalletStep} (member : step ∈ steps) :
    refunds contract steps step.request = false := by
  have nothing : steps.filterMap (signedRefund? contract) = [] := by
    rw [List.filterMap_eq_nil_iff]
    intro other otherMem
    have innocent := silent other otherMem
    unfold signedRefund?
    split
    · next asked _ =>
      exact if_neg (of_decide_eq_false innocent)
    · rfl
  unfold refunds broadcastsRefund
  rw [silent step member, Bool.false_or, nothing]
  cases step.request <;> rfl

/-- The manager knows the attestor, and no request for the attestation failed. -/
def fetched (oracles : List PublicKey) (steps : List WalletStep)
    (announcement : OracleAnnouncement) : Bool :=
  announcement.oraclePublicKey ∈ oracles && steps.all fun step =>
    step.request ≠ .getAttestation announcement.oraclePublicKey announcement.eventId ||
      !failed step

/-- A contract info of the contract has as many announcements as its threshold whose
attestations are fetched. -/
def Fetched (manager : Manager) (contract : SignedContract) (steps : List WalletStep) :
    Prop :=
  ∃ oracles, manager.oracles = some oracles ∧
    ∃ pair ∈ contract.acceptedContract.offeredContract.contractInfo.zip
        contract.acceptedContract.adaptorInfos,
      pair.1.threshold ≤ pair.1.oracleAnnouncements.countP (fetched oracles steps)

/-- The clock is before the refund lock time. -/
def BeforeLockTime (contract : SignedContract) (steps : List WalletStep) : Prop :=
  ∀ unixtime, Reported steps .getUnixtime unixtime →
    unixtime < contract.acceptedContract.dlcTransactions.refund.lockTime

/-- What keeps a contract from being refunded. -/
def Spared (manager : Manager) (contract : SignedContract) (steps : List WalletStep) : Prop :=
  BeforeLockTime contract steps ∨ Fetched manager contract steps

section Antitone

variable {manager : Manager} {contract : SignedContract} {oracles : List PublicKey}
  {steps more : List WalletStep}

theorem fetched_of_subset (included : steps ⊆ more) {announcement : OracleAnnouncement}
    (fetchedMore : fetched oracles more announcement = true) :
    fetched oracles steps announcement = true := by
  unfold fetched at fetchedMore ⊢
  rw [Bool.and_eq_true, List.all_eq_true] at fetchedMore ⊢
  exact ⟨fetchedMore.1, fun step member => fetchedMore.2 step (included member)⟩

theorem Fetched.of_subset (included : steps ⊆ more)
    (fetchedMore : Fetched manager contract more) : Fetched manager contract steps := by
  obtain ⟨oracles, known, pair, member, enough⟩ := fetchedMore
  refine ⟨oracles, known, pair, member, enough.trans (List.countP_mono_left ?_)⟩
  exact fun announcement _ => fetched_of_subset included

theorem Spared.of_subset (included : steps ⊆ more) (spared : Spared manager contract more) :
    Spared manager contract steps := by
  rcases spared with early | fetchedMore
  · exact .inl fun unixtime reported => early unixtime (reported.mono included)
  · exact .inr (fetchedMore.of_subset included)

end Antitone

/-- A refund of the contract is asked for only when nothing spares it. -/
def RefundJustified (manager : Manager) (contract : SignedContract) (past : List WalletStep)
    (step : WalletStep) : Prop :=
  asksForRefund contract step.request = true → ¬ Spared manager contract past

section Rules

variable {env : Environment ContractStore WalletRequest WalletRequest.Answer}
  {rely : ContractStore → ContractStore → Prop} {manager : Manager}
  {contract : SignedContract} {past : List WalletStep} {store : ContractStore} {α : Type}

/-- The look-up of one attestation succeeds if its requests do. -/
theorem always_indexedAttestation_fetched {oracles : List PublicKey}
    (indexed : OracleAnnouncement × Nat) :
    Always env rely (RefundJustified manager contract)
      (fun past answer _ => fetched oracles past indexed.1 = true →
        answer.toOption.isSome = true)
      past store (indexedAttestation manager oracles indexed.1 indexed.2).run := by
  unfold indexedAttestation
  split_ifs with known
  · refine (always_ask _ _).mpr fun before _ answer after _ => ⟨by rintro ⟨⟩, ?_⟩
    cases answer with
    | ok attestation => exact fun _ => rfl
    | error error =>
        intro fetchedAll
        have last := List.all_eq_true.mp ((Bool.and_eq_true _ _).mp fetchedAll).2 _
          (List.mem_append_right past (List.mem_singleton_self _))
        simp [failed] at last
  · intro fetchedAll
    simp [fetched, known] at fetchedAll

private theorem countP_le_length {oracles : List PublicKey} {steps : List WalletStep}
    {indexed : List (OracleAnnouncement × Nat)}
    {answers : List (Except DlcError (Nat × OracleAttestation))}
    (each : List.Forall₂ (fun indexed answer => fetched oracles steps indexed.1 = true →
      answer.toOption.isSome = true) indexed answers) :
    (indexed.map Prod.fst).countP (fetched oracles steps) ≤
      (answers.filterMap Except.toOption).length := by
  induction each with
  | nil => simp
  | @cons announcement answer _ _ succeeds _ ih =>
      rw [List.map_cons, List.countP_cons]
      cases answer with
      | ok value =>
          have one : (if fetched oracles steps announcement.1 = true then 1 else 0) ≤ 1 := by
            split_ifs <;> simp
          simp only [List.filterMap_cons, Except.toOption, List.length_cons]
          omega
      | error error =>
          have notFetched : ¬ fetched oracles steps announcement.1 = true := by
            intro fetchedAll
            cases succeeds fetchedAll
          rw [if_neg notFetched]
          exact ih

/-- A search that finds nothing to close lacks attestations of every contract info. -/
theorem always_findClosable_fetched {oracles : List PublicKey}
    (infos : List (ContractInfo × AdaptorInfo)) :
    Always env rely (RefundJustified manager contract)
      (fun past found _ => found = none → ∀ pair ∈ infos,
        pair.1.oracleAnnouncements.countP (fetched oracles past) < pair.1.threshold)
      past store (findClosable manager oracles infos) := by
  induction infos generalizing past store with
  | nil =>
      intro _ pair member
      cases member
  | cons pair rest ih =>
      obtain ⟨info, adaptor⟩ := pair
      have later {past : List WalletStep} {store : ContractStore}
          (lacks : info.oracleAnnouncements.countP (fetched oracles past) < info.threshold) :
          Always env rely (RefundJustified manager contract)
            (fun past found _ => found = none → ∀ pair ∈ (info, adaptor) :: rest,
              pair.1.oracleAnnouncements.countP (fetched oracles past) < pair.1.threshold)
            past store (findClosable manager oracles rest) := by
        refine ih.post_append.post_mono ?_
        rintro _ found _ ⟨⟨own, rfl⟩, others⟩ nothing other member
        rcases List.mem_cons.mp member with rfl | member
        · refine lt_of_le_of_lt (List.countP_mono_left fun announcement _ => ?_) lacks
          exact fetched_of_subset (List.subset_append_left _ _)
        · exact others nothing other member
      unfold findClosable
      split_ifs with possible
      · rw [always_bind]
        refine (always_mapM (fun _ _ => True) (fun past indexed answer =>
          fetched oracles past indexed.1 = true → answer.toOption.isSome = true)
          ?_ _ trivial ?_).post_mono ?_
        · intro past own indexed answer succeeds fetchedAll
          exact succeeds (fetched_of_subset (List.subset_append_left _ _) fetchedAll)
        · intro indexed _ past store _
          exact (always_indexedAttestation_fetched indexed).post_mono
            fun _ _ _ succeeds => ⟨trivial, succeeds⟩
        · rintro past answers store ⟨-, each⟩
          have counted := countP_le_length each
          rw [List.zipIdx_map_fst] at counted
          dsimp only
          split_ifs with enough
          · rintro ⟨⟩
          · exact later (by omega)
      · refine later (lt_of_le_of_lt List.countP_le_length ?_)
        omega

/-- A look-up that gives nothing to close lacks attestations of the contract. -/
theorem always_getClosableContractInfo_fetched (other : SignedContract) :
    Always env rely (RefundJustified manager contract)
      (fun past found _ => (∀ closable, found ≠ .ok (some closable)) →
        ¬ Fetched manager other past)
      past store (getClosableContractInfo manager other).run := by
  unfold getClosableContractInfo
  cases known : manager.oracles with
  | none =>
      rintro - ⟨oracles, given, -⟩
      rw [known] at given
      cases given
  | some oracles =>
      refine (always_bind _ _).mpr ((always_findClosable_fetched _).post_mono ?_)
      rintro past found _ lacks nothing ⟨others, given, pair, member, enough⟩
      obtain rfl := Option.some.inj (known.symm.trans given)
      cases found with
      | none => exact absurd (lacks rfl pair member) (Nat.not_lt.mpr enough)
      | some closable => exact nothing closable rfl

/-- The rule of a program that asks for no refund of the contract. -/
theorem always_of_asks {program : Program WalletRequest WalletRequest.Answer α}
    (asks : Asks (fun request => asksForRefund contract request = false) program) :
    Always env rely (RefundJustified manager contract) (fun _ _ _ => True) past store
      program := by
  refine asks.always_past (fun _ => True) (fun past step innocent _ => ⟨?_, trivial⟩) trivial
  intro refund
  rw [innocent] at refund
  cases refund

/-- The refund of a contract whose attestations are lacking. -/
theorem always_checkRefund_justified {other : SignedContract}
    (lacks : other = contract → ¬ Fetched manager contract past) :
    Always env rely (RefundJustified manager contract) (fun _ _ _ => True) past store
      (checkRefund other).run := by
  unfold checkRefund
  refine always_ask_bind fun before _ answer after _ => ⟨by rintro ⟨⟩, ?_⟩
  cases answer with
  | error error => trivial
  | ok unixtime =>
      dsimp only
      split_ifs with passed
      · have unspared : other = contract → ¬ Spared manager contract
            (past ++ [⟨before, .getUnixtime, .ok unixtime, after⟩]) := by
          rintro rfl (early | fetchedAll)
          · exact absurd (early unixtime (reported_last _ _ _ _ _)) (Nat.not_lt.mpr passed)
          · exact lacks rfl (fetchedAll.of_subset (List.subset_append_left _ _))
        have asks : Asks (fun request => asksForRefund contract request = true → other = contract)
            (do
              let confirmations ← ask (.getTransactionConfirmations
                other.acceptedContract.dlcTransactions.refund.txid)
              let _ ← (if confirmations = 0 then sendRefund other else return ())
              ask (.updateContract (.refunded other)) : ManagerM Unit).run := by
          refine asks_run_bind (asks_perform (by rintro ⟨⟩)) fun confirmations =>
            asks_run_bind ?_ fun _ => asks_perform fun same => of_decide_eq_true same
          split_ifs
          · exact asks_run_bind (asks_perform fun same => of_decide_eq_true same)
              fun _ => asks_perform (by rintro ⟨⟩)
          · exact asks_pure _
        refine (asks.always_past (fun past => other = contract →
          ¬ Spared manager contract past) ?_ unspared).post_mono fun _ _ _ _ => trivial
        intro past step may unspared
        refine ⟨fun refund => unspared (may refund), fun same spared => ?_⟩
        exact unspared same (spared.of_subset (List.subset_append_left _ _))
      · trivial

theorem always_checkConfirmedContract_justified (other : SignedContract) :
    Always env rely (RefundJustified manager contract) (fun _ _ _ => True) past store
      (checkConfirmedContract manager other).run := by
  unfold checkConfirmedContract
  refine (always_run_lift_bind _ _).mpr
    ((always_getClosableContractInfo_fetched other).post_mono fun past found store lacks => ?_)
  have refund (nothing : ∀ closable, found ≠ .ok (some closable)) :
      Always env rely (RefundJustified manager contract) (fun _ _ _ => True) past store
        (do let _ ← checkRefund other
            return false : ManagerM Bool).run := by
    refine always_run_seq (always_checkRefund_justified ?_) fun _ _ _ => trivial
    rintro rfl
    exact lacks nothing
  rcases found with error | - | ⟨info, adaptor, attestations⟩
  · exact refund (by simp)
  · exact refund (by simp)
  · refine always_of_asks (asks_run_bind (asks_perform rfl) fun cet =>
      asks_closeContract_bind _ _ _ _ rfl rfl ?_ ?_)
    · exact asks_run_bind (asks_perform rfl) fun _ => asks_pure _
    · exact asks_run_bind (asks_perform rfl) fun _ => asks_pure _

theorem always_periodicCheck_justified :
    Always env rely (RefundJustified manager contract) (fun _ _ _ => True) past store
      (periodicCheck manager).run := by
  have confirms (confirmations : Nat) (target : DlcContract)
      (other : asksForRefund contract (.updateContract target) = false) :
      Asks (fun request => asksForRefund contract request = false)
        (if nbConfirmations ≤ confirmations then do
            let _ ← ask (.updateContract target)
            return true
          else return false : ManagerM Bool).run := by
    split_ifs
    · exact asks_run_bind (asks_perform other) fun _ => asks_pure _
    · exact asks_pure _
  have signed {past store} : Always env rely (RefundJustified manager contract)
      (fun _ _ _ => True) past store checkSignedContracts.run :=
    always_run_seq (always_of_asks (asks_perform rfl)) fun contracts _ _ =>
      always_checkEach (fun _ _ => True) (fun _ _ _ _ => trivial)
        (fun contract _ _ _ => always_of_asks (asks_run_bind (asks_perform rfl)
          fun confirmations => confirms _ _ rfl)) fun _ _ => trivial
  have confirmed {past store} : Always env rely (RefundJustified manager contract)
      (fun _ _ _ => True) past store (checkConfirmedContracts manager).run :=
    always_run_seq (always_of_asks (asks_perform rfl)) fun contracts _ _ =>
      always_checkEach (fun _ _ => True) (fun _ _ _ _ => trivial)
        (fun contract _ _ _ => always_checkConfirmedContract_justified contract)
        fun _ _ => trivial
  have preClosed {past store} : Always env rely (RefundJustified manager contract)
      (fun _ _ _ => True) past store (checkPreclosedContracts manager).run :=
    always_run_seq (always_of_asks (asks_perform rfl)) fun contracts _ _ =>
      always_checkEach (fun _ _ => True) (fun _ _ _ _ => trivial)
        (fun contract _ _ _ => always_of_asks (asks_run_bind (asks_perform rfl)
          fun confirmations => confirms _ _ rfl)) fun _ _ => trivial
  exact always_run_seq signed fun _ _ _ => always_run_seq confirmed fun _ _ _ =>
    always_run_seq preClosed fun _ _ _ => trivial

end Rules

/-- In every run of periodic checks, each of which finds the clock before the refund lock
time or fetches attestations enough, the contract is not refunded. -/
theorem periodicChecks_spared {repliesLost : Prop} {manager : Manager}
    {contract : SignedContract} {start final : ContractStore}
    {sessions : List (Session Unit ContractStore WalletRequest WalletRequest.Answer
      (Except DlcError (List Report)))}
    (runs : RunsEach (World repliesLost) (fun _ : Unit => (periodicCheck manager).run) start
      sessions final)
    (spared : ∀ session ∈ sessions, Spared manager contract session.steps) :
    ∀ session ∈ sessions, ∀ step ∈ session.steps,
      refunds contract session.steps step.request = false := by
  induction sessions generalizing start with
  | nil => simp
  | cons session rest ih =>
      obtain ⟨middle, run, runs⟩ := runs
      intro other member
      rcases List.mem_cons.mp member with rfl | member
      · refine fun _ => refunds_of_silent fun step stepMem => ?_
        obtain ⟨front, back, split⟩ := List.append_of_mem stepMem
        have always : Always (World repliesLost) Eq (RefundJustified manager contract)
            (fun _ _ _ => True) [] start (periodicCheck manager).run :=
          always_periodicCheck_justified
        have justified := (always.of_runs run).1 front step back split
        have included : front ⊆ other.steps := split ▸ List.subset_append_left _ _
        exact Bool.eq_false_iff.mpr fun refund =>
          justified refund ((spared other List.mem_cons_self).of_subset included)
      · exact ih runs (fun other member => spared other (List.mem_cons_of_mem _ member))
          other member

/-! ## An attestation that is fetched once -/

/-- Others whose attestor has attested and is reached or not, after the refund lock time;
transactions can be sent or not. -/
def unsteadyOthers (reached sends : Bool) : Others where
  down _ := false
  answers
    | .getAttestation oracle _ =>
        if reached then .ok ⟨oracle, ["signature"], ["outcome"]⟩
        else .error (.oracleError "unreachable")
    | .sendTransaction _ =>
        if sends then .ok () else .error (.blockchainError "unreachable")
    | request => (sampleOthers (fun _ => 0) true 200 fun _ => false).answers request

/-- A check that fetches the attestation and can not send the CET, and one that reaches the
attestor or not. -/
def sampleUnsteady (reached : Bool) :
    List (Session Unit ContractStore WalletRequest WalletRequest.Answer
      (Except DlcError (List Report))) :=
  let first := eval (serve (unsteadyOthers true false)) (periodicCheck sampleManager).run
    (sampleStore (.confirmed sampleLapsed))
  let second := eval (serve (unsteadyOthers reached true)) (periodicCheck sampleManager).run
    first.2.2
  [⟨(), first.1, first.2.1⟩, ⟨(), second.1, second.2.1⟩]

theorem runs_sampleUnsteady (reached : Bool) :
    ∃ final, RunsEach (World False) (fun _ : Unit => (periodicCheck sampleManager).run)
      (sampleStore (.confirmed sampleLapsed)) (sampleUnsteady reached) final :=
  ⟨_, _, runs_eval (serve (unsteadyOthers true false)) (world_serve False _) _ _,
    _, runs_eval (serve (unsteadyOthers reached true)) (world_serve False _) _ _, rfl⟩

/-- Both checks fetch the attestation and neither refunds. -/
theorem periodicChecks_spared_sampleUnsteady :
    ∃ final, RunsEach (World False) (fun _ : Unit => (periodicCheck sampleManager).run)
        (sampleStore (.confirmed sampleLapsed)) (sampleUnsteady true) final ∧
      ∀ session ∈ sampleUnsteady true, ∀ step ∈ session.steps,
        refunds sampleLapsed session.steps step.request = false := by
  obtain ⟨final, runs⟩ := runs_sampleUnsteady true
  refine ⟨final, runs, periodicChecks_spared runs fun session member => .inr
    ⟨["oracle"], rfl, (⟨[⟨"oracle", "event"⟩], 1⟩, .enum), by decide, ?_⟩⟩
  revert session
  decide +kernel

/-- The contract is refunded although its attestation has been fetched before. -/
theorem not_periodicChecks_spared :
    ¬ ∀ (manager : Manager) (contract : SignedContract) (start final : ContractStore)
        (first second : Session Unit ContractStore WalletRequest WalletRequest.Answer
          (Except DlcError (List Report))),
        RunsEach (World False) (fun _ : Unit => (periodicCheck manager).run) start
          [first, second] final →
        (∃ info adaptor attestations,
          (info, adaptor) ∈ contract.acceptedContract.offeredContract.contractInfo.zip
            contract.acceptedContract.adaptorInfos ∧
          Attested manager first.steps info attestations) →
        ∀ step ∈ second.steps, refunds contract second.steps step.request = false := by
  intro claimed
  obtain ⟨final, runs⟩ := runs_sampleUnsteady false
  have attested : Attested sampleManager
      (eval (serve (unsteadyOthers true false)) (periodicCheck sampleManager).run
        (sampleStore (.confirmed sampleLapsed))).1
      ⟨[⟨"oracle", "event"⟩], 1⟩ [(0, ⟨"oracle", ["signature"], ["outcome"]⟩)] := by
    refine ⟨by decide, by decide, fun index attestation member => ?_⟩
    obtain ⟨rfl, rfl⟩ := Prod.mk.inj (List.mem_singleton.mp member)
    exact ⟨⟨"oracle", "event"⟩, rfl, ⟨["oracle"], rfl, by decide⟩, _, _,
      List.mem_of_getElem? (i := 2) rfl⟩
  have silent := claimed _ sampleLapsed _ _ _ _ runs
    ⟨_, .enum, _, by decide, attested⟩
  exact absurd silent (by decide +kernel)

end LinkManager

end DlcStack
