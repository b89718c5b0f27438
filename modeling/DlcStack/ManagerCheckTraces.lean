import DlcStack.ManagerWarrants

/-!
# What the check of one contract does

Whatever happens to the store meanwhile, the steps of each check have the shape
of a trace: its one update is warranted by the answers to the requests before
it, and follows right after the transaction that it published.
-/

namespace DlcStack

namespace LinkManager

open Program

section Rules

variable {repliesLost : Prop} {manager : Manager} {source : DlcContract} {α : Type}
  {post : List WalletStep → Except DlcError α → ContractStore → Prop}
  {past : List WalletStep} {store : ContractStore}

/-- The rule of a inquiry: a failure ends the program. -/
theorem always_inquiry_bind {request : WalletRequest}
    {rest : request.Reply → ManagerM α} (asks : request.isInquiry = true)
    (inquiries : Inquiries past)
    (replied : ∀ reply before after,
      Inquiries (past ++ [⟨before, request, .ok reply, after⟩]) →
      Always (World repliesLost) (fun _ _ => True) (Orderly manager source) post
        (past ++ [⟨before, request, .ok reply, after⟩]) after (rest reply).run)
    (failed : ∀ steps error store, Inquiries steps → post steps (.error error) store) :
    Always (World repliesLost) (fun _ _ => True) (Orderly manager source) post
      past store (ask request >>= rest).run := by
  refine always_ask_bind fun before _ answer after _ => ⟨fun writes => ?_, ?_⟩
  · rw [(WalletRequest.isInquiry_reads asks).1] at writes
    cases writes
  · cases answer with
    | ok reply => exact replied reply before after (inquiries.snoc asks)
    | error error => exact failed _ error _ (inquiries.snoc asks)

/-- The rule of the update that ends a check. -/
theorem always_update {target : DlcContract} (store : ContractStore)
    (prepares : Prepares source target past)
    (warranted : Warranted manager past source target) :
    Always (World repliesLost) (fun _ _ => True) (Orderly manager source)
      (fun past result _ => CheckTrace manager source past
        (result.map fun _ => target.refunded?.isNone))
      past store (ask (.updateContract target)).run := by
  refine (always_ask _ _).mpr fun before _ answer after _ => ?_
  exact ⟨fun _ => ⟨target, rfl, warranted⟩, .wrote prepares warranted⟩

/-- The checks that record a contract whose transaction has enough
confirmations. -/
theorem always_moveWhenConfirmed {txid : Txid} {target : DlcContract}
    (warranted : ∀ steps confirmations,
      Reported steps (.getTransactionConfirmations txid) confirmations →
        nbConfirmations ≤ confirmations → Warranted manager steps source target)
    (kept : target.refunded? = none) (store : ContractStore) :
    Always (World repliesLost) (fun _ _ => True) (Orderly manager source)
      (fun past result _ => CheckTrace manager source past result) [] store
      (do
        let confirmations ← ask (.getTransactionConfirmations txid)
        if nbConfirmations ≤ confirmations then
          let _ ← ask (.updateContract target)
          return true
        else
          return false : ManagerM Bool).run := by
  refine always_inquiry_bind rfl inquiries_nil ?_
    (fun steps error _ inquiries => .inquired inquiries (by simp))
  intro confirmations before after inquiries
  split_ifs with enough
  · rw [always_run_bind]
    refine (always_update _ (.inquired inquiries)
      (warranted _ _ (reported_last _ _ _ _ _) enough)).post_mono ?_
    intro past result _ trace
    cases result with
    | ok _ =>
        simp only [Except.map, kept, Option.isNone_none] at trace
        exact trace
    | error _ => exact trace
  · exact .inquired inquiries (by simp [Except.ok.injEq])

end Rules

theorem always_checkSignedContract {repliesLost : Prop} (manager : Manager)
    (contract : SignedContract) (store : ContractStore) :
    Always (World repliesLost) (fun _ _ => True) (Orderly manager (.signed contract))
      (fun past result _ => CheckTrace manager (.signed contract) past result)
      [] store (checkSignedContract contract).run :=
  always_moveWhenConfirmed (fun _ _ reported enough => .confirm reported enough) rfl store

theorem always_checkPreclosedContract {repliesLost : Prop} (manager : Manager)
    (contract : PreClosedContract) (store : ContractStore) :
    Always (World repliesLost) (fun _ _ => True)
      (Orderly manager (.preClosed contract))
      (fun past result _ => CheckTrace manager (.preClosed contract) past result)
      [] store (checkPreclosedContract manager contract).run :=
  always_moveWhenConfirmed (fun _ _ reported enough => .settle reported enough) rfl store

/-! ## The check of a confirmed contract -/

section Confirmed

variable {repliesLost : Prop} {manager : Manager} {source : DlcContract}
  {past : List WalletStep} {store : ContractStore}

/-- What is known of one answer of an attestor. -/
def AnswersFor (manager : Manager) (steps : List WalletStep)
    (indexed : OracleAnnouncement × Nat)
    (answer : Except DlcError (Nat × OracleAttestation)) : Prop :=
  ∀ index attestation, answer = .ok (index, attestation) →
    index = indexed.2 ∧
      (∃ oracles, manager.oracles = some oracles ∧
        indexed.1.oraclePublicKey ∈ oracles) ∧
      Reported steps (.getAttestation indexed.1.oraclePublicKey indexed.1.eventId)
        attestation

theorem always_indexedAttestation {oracles : List PublicKey}
    (known : manager.oracles = some oracles) (indexed : OracleAnnouncement × Nat)
    (inquiries : Inquiries past) :
    Always (World repliesLost) (fun _ _ => True) (Orderly manager source)
      (fun past answer _ => Inquiries past ∧ AnswersFor manager past indexed answer)
      past store
      (indexedAttestation manager oracles indexed.1 indexed.2).run := by
  unfold indexedAttestation
  split_ifs with member
  · refine (always_ask _ _).mpr fun before _ answer after _ => ?_
    have steps := inquiries.snoc
      (rfl : (⟨before, .getAttestation indexed.1.oraclePublicKey
        indexed.1.eventId, answer, after⟩ : WalletStep).request.isInquiry = true)
    refine ⟨fun writes => ?_, ?_⟩
    · cases writes
    · cases answer with
      | ok attestation =>
          refine ⟨steps, ?_⟩
          rintro _ _ ⟨⟩
          exact ⟨rfl, ⟨oracles, known, member⟩, reported_last _ _ _ _ _⟩
      | error error => exact ⟨steps, fun _ _ => nofun⟩
  · exact ⟨inquiries, fun _ _ => nofun⟩

private theorem indexes_sublist {steps : List WalletStep}
    {indexed : List (OracleAnnouncement × Nat)}
    {answers : List (Except DlcError (Nat × OracleAttestation))}
    (each : List.Forall₂ (AnswersFor manager steps) indexed answers) :
    ((answers.filterMap Except.toOption).map Prod.fst).Sublist
      (indexed.map Prod.snd) := by
  induction each with
  | nil => exact List.Sublist.slnil
  | @cons announcement answer _ _ answersFor _ ih =>
      cases answer with
      | ok value =>
          obtain ⟨indexEq, _⟩ := answersFor value.1 value.2 rfl
          rw [List.map_cons, ← indexEq]
          exact ih.cons_cons _
      | error error => exact ih.cons _

private theorem exists_of_answer {steps : List WalletStep}
    {indexed : List (OracleAnnouncement × Nat)}
    {answers : List (Except DlcError (Nat × OracleAttestation))}
    (each : List.Forall₂ (AnswersFor manager steps) indexed answers)
    {answer : Except DlcError (Nat × OracleAttestation)} (member : answer ∈ answers) :
    ∃ announcement ∈ indexed, AnswersFor manager steps announcement answer := by
  induction each with
  | nil => cases member
  | cons answersFor _ ih =>
      rcases List.mem_cons.mp member with rfl | member
      · exact ⟨_, by simp, answersFor⟩
      · obtain ⟨announcement, announcementMem, holds⟩ := ih member
        exact ⟨announcement, List.mem_cons_of_mem _ announcementMem, holds⟩

/-- Answers of the attestors of a contract info, as many as its threshold, are
attestations of it. -/
theorem attested_of_answers {steps : List WalletStep} {info : ContractInfo}
    {answers : List (Except DlcError (Nat × OracleAttestation))}
    (each : List.Forall₂ (AnswersFor manager steps)
      info.oracleAnnouncements.zipIdx answers)
    (enough : info.threshold ≤ (answers.filterMap Except.toOption).length) :
    Attested manager steps info (answers.filterMap Except.toOption) := by
  refine ⟨enough, ?_, ?_⟩
  · have sublist := indexes_sublist each
    rw [List.zipIdx_map_snd] at sublist
    exact (List.nodup_range' 1 (by omega)).sublist sublist
  · intro index attestation member
    obtain ⟨answer, answerMem, given⟩ := List.mem_filterMap.mp member
    obtain ⟨indexed, indexedMem, answers⟩ := exists_of_answer each answerMem
    have answerEq : answer = .ok (index, attestation) := by
      cases answer with
      | ok value => exact congrArg Except.ok (Option.some.inj given)
      | error error => cases given
    obtain ⟨rfl, known, reported⟩ := answers index attestation answerEq
    exact ⟨indexed.1, List.mem_zipIdx_iff_getElem?.mp indexedMem, known, reported⟩

/-- The search for a contract info that can be closed. -/
theorem always_findClosable {oracles : List PublicKey}
    (known : manager.oracles = some oracles)
    (infos : List (ContractInfo × AdaptorInfo)) (inquiries : Inquiries past) :
    Always (World repliesLost) (fun _ _ => True) (Orderly manager source)
      (fun past found _ => Inquiries past ∧
        ∀ info adaptor attestations, found = some (info, adaptor, attestations) →
          (info, adaptor) ∈ infos ∧ Attested manager past info attestations)
      past store (findClosable manager oracles infos) := by
  induction infos generalizing past store with
  | nil => exact ⟨inquiries, fun _ _ _ => nofun⟩
  | cons pair rest ih =>
      obtain ⟨info, adaptor⟩ := pair
      have later {past : List WalletStep} {store : ContractStore}
          (inquiries : Inquiries past) :
          Always (World repliesLost) (fun _ _ => True) (Orderly manager source)
            (fun past found _ => Inquiries past ∧
              ∀ info' adaptor' attestations,
                found = some (info', adaptor', attestations) →
                (info', adaptor') ∈ (info, adaptor) :: rest ∧
                  Attested manager past info' attestations)
            past store (findClosable manager oracles rest) := by
        refine (ih inquiries).post_mono fun past found _ holds => ⟨holds.1, ?_⟩
        intro info' adaptor' attestations same
        obtain ⟨member, attested⟩ := holds.2 info' adaptor' attestations same
        exact ⟨List.mem_cons_of_mem _ member, attested⟩
      unfold findClosable
      split_ifs with possible
      · rw [always_bind]
        refine (always_mapM (fun past _ => Inquiries past) (AnswersFor manager)
          ?_ _ inquiries ?_).post_mono ?_
        · intro past later indexed answer answersFor index attestation same
          obtain ⟨indexEq, known, reported⟩ := answersFor index attestation same
          exact ⟨indexEq, known, reported.append later⟩
        · exact fun indexed _ past state inquiries =>
            always_indexedAttestation known indexed inquiries
        · rintro past answers store ⟨inquiries, each⟩
          dsimp only
          split_ifs with enough
          · refine ⟨inquiries, ?_⟩
            rintro _ _ _ ⟨⟩
            exact ⟨by simp, attested_of_answers each enough⟩
          · exact later inquiries
      · exact later inquiries

/-- The request for the attestations of a contract. -/
theorem always_getClosableContractInfo (contract : SignedContract)
    (inquiries : Inquiries past) :
    Always (World repliesLost) (fun _ _ => True) (Orderly manager source)
      (fun past result _ => Inquiries past ∧
        ∀ info adaptor attestations,
          result = .ok (some (info, adaptor, attestations)) →
            (info, adaptor) ∈
              contract.acceptedContract.offeredContract.contractInfo.zip
                contract.acceptedContract.adaptorInfos ∧
            Attested manager past info attestations)
      past store (getClosableContractInfo manager contract).run := by
  unfold getClosableContractInfo
  cases known : manager.oracles with
  | none => exact ⟨inquiries, fun _ _ _ => nofun⟩
  | some oracles =>
      refine (always_bind _ _).mpr ((always_findClosable known _ inquiries).post_mono ?_)
      rintro past found _ ⟨inquiries, closable⟩
      refine ⟨inquiries, fun info adaptor attestations same => ?_⟩
      exact closable info adaptor attestations (Except.ok.inj same)

/-- The closing of a contract for which a CET was made. -/
theorem always_closeContract {contract : SignedContract} {info : ContractInfo}
    {adaptor : AdaptorInfo} {attestations : List (Nat × OracleAttestation)}
    {cet : Transaction} {before after : ContractStore}
    (pair : (info, adaptor) ∈
      contract.acceptedContract.offeredContract.contractInfo.zip
        contract.acceptedContract.adaptorInfos)
    (attested : Attested manager past info attestations)
    (inquiries : Inquiries (past ++
      [⟨before, .getSignedCet contract info adaptor attestations, .ok cet, after⟩])) :
    Always (World repliesLost) (fun _ _ => True) (Orderly manager (.confirmed contract))
      (fun past result _ =>
        match result with
        | .ok closed =>
            closed.refunded? = none ∧ Prepares (.confirmed contract) closed past ∧
              Warranted manager past (.confirmed contract) closed
        | .error error =>
            CheckTrace manager (.confirmed contract) past (.error error))
      (past ++
        [⟨before, .getSignedCet contract info adaptor attestations, .ok cet, after⟩])
      store
      (closeContract manager contract cet (attestations.map Prod.snd)).run := by
  have built (later : List WalletStep) :
      BuiltCet manager ((past ++
        [⟨before, .getSignedCet contract info adaptor attestations, .ok cet, after⟩])
          ++ later) contract cet attestations :=
    ⟨info, adaptor, pair, (attested.append _).append _,
      (reported_last _ _ _ _ _).append _⟩
  refine always_inquiry_bind rfl inquiries ?_
    (fun _ _ _ inquiries => .inquired inquiries (by simp))
  intro confirmations first second inquiries
  have ends : made? (past ++
      [⟨before, .getSignedCet contract info adaptor attestations, .ok cet, after⟩] ++
      [⟨first, .getTransactionConfirmations cet.txid, .ok confirmations, second⟩]) =
        some (.cet, contract, cet) := by
    simp [made?, made]
  split_ifs with unconfirmed few
  · refine always_ask_bind fun third _ answer fourth _ => ⟨fun writes => ?_, ?_⟩
    · cases writes
    · cases answer with
      | ok _ =>
          refine ⟨rfl, .published rfl (.mk inquiries ends ⟨_, rfl⟩),
            .preClose ?_ (.inr (reported_last _ _ _ _ _))⟩
          rw [List.append_assoc]
          exact built _
      | error error => exact .unpublished rfl (.mk inquiries ends ⟨none, rfl⟩)
  · exact ⟨rfl, .inquired inquiries, .preClose (built _)
      (.inl ⟨confirmations, reported_last _ _ _ _ _, Nat.le_of_not_lt unconfirmed,
        few⟩)⟩
  · exact ⟨rfl, .inquired inquiries, .close (built _) (reported_last _ _ _ _ _)
      (Nat.le_of_not_lt few)⟩

/-- The refund of a contract. -/
theorem always_checkRefund (contract : SignedContract) (inquiries : Inquiries past) :
    Always (World repliesLost) (fun _ _ => True) (Orderly manager (.confirmed contract))
      (fun past result _ => CheckTrace manager (.confirmed contract) past
        (result.map fun _ => false))
      past store (checkRefund contract).run := by
  have failed (steps : List WalletStep) (error : DlcError) (_ : ContractStore)
      (inquiries : Inquiries steps) :
      CheckTrace manager (.confirmed contract) steps
        ((Except.error error : Except DlcError Unit).map fun _ => false) :=
    .inquired inquiries (by simp [Except.map])
  refine always_inquiry_bind rfl inquiries ?_ failed
  intro unixtime first second inquiries
  have time : Reported (past ++ [⟨first, .getUnixtime, .ok unixtime, second⟩])
      .getUnixtime unixtime := reported_last _ _ _ _ _
  dsimp only
  split_ifs with passed
  · refine always_inquiry_bind rfl inquiries ?_ failed
    intro confirmations third fourth inquiries
    split_ifs with unconfirmed
    · rw [always_run_bind]
      refine always_inquiry_bind rfl inquiries ?_ failed
      intro refund fifth sixth inquiries
      have ends : made? (past ++ [⟨first, .getUnixtime, .ok unixtime, second⟩] ++
          [⟨third, .getTransactionConfirmations
            contract.acceptedContract.dlcTransactions.refund.txid,
            .ok confirmations, fourth⟩] ++
          [⟨fifth, .getSignedRefund contract, .ok refund, sixth⟩]) =
            some (.refund, contract, refund) := by
        simp [made?, made]
      refine (always_ask _ _).mpr fun seventh _ answer eighth _ => ⟨fun writes => ?_, ?_⟩
      · cases writes
      · cases answer with
        | ok _ =>
            exact always_update eighth (.published rfl (.mk inquiries ends rfl))
              (.refund (((time.append _).append _).append _) passed
                (.inr ⟨refund, (reported_last _ _ _ _ _).append _,
                  reported_last _ _ _ _ _⟩))
        | error error =>
            exact .unpublished rfl
              (.mk inquiries ends (rfl : Settlement.Records .refund contract refund _))
    · exact always_update _ (.inquired inquiries) (.refund (time.append _) passed
        (.inl ⟨confirmations, reported_last _ _ _ _ _, Nat.pos_of_ne_zero unconfirmed⟩))
  · exact .inquired inquiries (by simp [Except.map])

end Confirmed

theorem always_checkConfirmedContract {repliesLost : Prop} (manager : Manager)
    (contract : SignedContract) (store : ContractStore) :
    Always (World repliesLost) (fun _ _ => True)
      (Orderly manager (.confirmed contract))
      (fun past result _ => CheckTrace manager (.confirmed contract) past result)
      [] store (checkConfirmedContract manager contract).run := by
  have refunds {past : List WalletStep} {store : ContractStore}
      (inquiries : Inquiries past) :
      Always (World repliesLost) (fun _ _ => True)
        (Orderly manager (.confirmed contract))
        (fun past result _ => CheckTrace manager (.confirmed contract) past result)
        past store
        (do
          let _ ← checkRefund contract
          return false : ManagerM Bool).run := by
    rw [always_run_bind]
    refine (always_checkRefund contract inquiries).post_mono fun past result _ trace => ?_
    cases result <;> exact trace
  unfold checkConfirmedContract
  rw [always_run_lift_bind]
  refine (always_getClosableContractInfo contract inquiries_nil).post_mono ?_
  rintro past closable store ⟨inquiries, found⟩
  cases closable with
  | error error => exact refunds inquiries
  | ok closable =>
      cases closable with
      | none => exact refunds inquiries
      | some closable =>
          obtain ⟨info, adaptor, attestations⟩ := closable
          obtain ⟨pair, attested⟩ := found info adaptor attestations rfl
          refine always_inquiry_bind rfl inquiries ?_
            (fun _ _ _ inquiries => .inquired inquiries (by simp))
          intro cet before after inquiries
          rw [always_run_bind]
          refine (always_closeContract pair attested inquiries).post_mono ?_
          intro past result store closing
          cases result with
          | error error => exact closing
          | ok closed =>
              obtain ⟨kept, prepares, warranted⟩ := closing
              refine (always_run_bind _ _).mpr ?_
              refine (always_update _ prepares warranted).post_mono ?_
              intro past result _ trace
              cases result with
              | ok _ =>
                  simp only [Except.map, kept, Option.isNone_none] at trace
                  exact trace
              | error _ => exact trace

end LinkManager

end DlcStack
