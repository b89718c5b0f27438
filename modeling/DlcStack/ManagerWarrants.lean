import DlcStack.ManagerPeriodicCheck

/-!
# What warrants an update

What the answers to earlier requests must say for a check to replace the record
of a contract, and the shape of the steps of one completed check: requests that
change nothing, possibly the publication of a settlement transaction, and at
most one update, last.
-/

namespace DlcStack

namespace LinkManager

open Program

/-! ## Steps -/

/-- Steps that only inform the manager. -/
def Inquiries (steps : List WalletStep) : Prop :=
  ∀ step ∈ steps, step.request.isInquiry = true

theorem inquiries_nil : Inquiries [] := by
  simp [Inquiries]

theorem Inquiries.snoc {steps : List WalletStep} (inquiries : Inquiries steps)
    {step : WalletStep} (asks : step.request.isInquiry = true) :
    Inquiries (steps ++ [step]) := by
  intro other member
  rcases List.mem_append.mp member with member | member
  · exact inquiries other member
  · obtain rfl := List.mem_singleton.mp member
    exact asks

/-- The request was answered with this reply. -/
def Reported (steps : List WalletStep) (request : WalletRequest)
    (reply : request.Reply) : Prop :=
  ∃ before after, (⟨before, request, .ok reply, after⟩ : WalletStep) ∈ steps

theorem Reported.mono {steps more : List WalletStep} {request : WalletRequest}
    {reply : request.Reply} (reported : Reported steps request reply)
    (included : steps ⊆ more) : Reported more request reply := by
  obtain ⟨before, after, member⟩ := reported
  exact ⟨before, after, included member⟩

theorem Reported.append {steps : List WalletStep} {request : WalletRequest}
    {reply : request.Reply} (reported : Reported steps request reply)
    (later : List WalletStep) : Reported (steps ++ later) request reply :=
  reported.mono (List.subset_append_left _ _)

theorem reported_last (steps : List WalletStep) (before after : ContractStore)
    (request : WalletRequest) (reply : request.Reply) :
    Reported (steps ++ [⟨before, request, .ok reply, after⟩]) request reply :=
  ⟨before, after, by simp⟩

/-! ## Warrants -/

/-- Attestations of distinct announcements of the contract info, at least as
many as its threshold, each given by an attestor the manager knows. -/
structure Attested (manager : Manager) (steps : List WalletStep)
    (info : ContractInfo) (attestations : List (Nat × OracleAttestation)) :
    Prop where
  enough : info.threshold ≤ attestations.length
  distinct : (attestations.map Prod.fst).Nodup
  reported : ∀ index attestation, (index, attestation) ∈ attestations →
    ∃ announcement, info.oracleAnnouncements[index]? = some announcement ∧
      (∃ oracles, manager.oracles = some oracles ∧
        announcement.oraclePublicKey ∈ oracles) ∧
      Reported steps (.getAttestation announcement.oraclePublicKey
        announcement.eventId) attestation

theorem Attested.mono {manager : Manager} {steps more : List WalletStep}
    {info : ContractInfo} {attestations : List (Nat × OracleAttestation)}
    (attested : Attested manager steps info attestations) (included : steps ⊆ more) :
    Attested manager more info attestations := by
  refine ⟨attested.enough, attested.distinct, ?_⟩
  intro index attestation member
  obtain ⟨announcement, found, known, given⟩ :=
    attested.reported index attestation member
  exact ⟨announcement, found, known, given.mono included⟩

theorem Attested.append {manager : Manager} {steps : List WalletStep}
    {info : ContractInfo} {attestations : List (Nat × OracleAttestation)}
    (attested : Attested manager steps info attestations) (later : List WalletStep) :
    Attested manager (steps ++ later) info attestations :=
  attested.mono (List.subset_append_left _ _)

/-- The CET was built for the contract from attestations of one of its contract
infos. -/
def BuiltCet (manager : Manager) (steps : List WalletStep)
    (contract : SignedContract) (cet : Transaction)
    (attestations : List (Nat × OracleAttestation)) : Prop :=
  ∃ info adaptor,
    (info, adaptor) ∈ contract.acceptedContract.offeredContract.contractInfo.zip
      contract.acceptedContract.adaptorInfos ∧
    Attested manager steps info attestations ∧
    Reported steps (.getSignedCet contract info adaptor attestations) cet

theorem BuiltCet.mono {manager : Manager} {steps more : List WalletStep}
    {contract : SignedContract} {cet : Transaction}
    {attestations : List (Nat × OracleAttestation)}
    (built : BuiltCet manager steps contract cet attestations)
    (included : steps ⊆ more) : BuiltCet manager more contract cet attestations := by
  obtain ⟨info, adaptor, member, attested, reported⟩ := built
  exact ⟨info, adaptor, member, attested.mono included, reported.mono included⟩

/-- The steps warrant that the first contract is replaced by the second. -/
inductive Warranted (manager : Manager) (steps : List WalletStep) :
    DlcContract → DlcContract → Prop
  | confirm {contract : SignedContract} {confirmations : Nat}
      (reported : Reported steps (.getTransactionConfirmations
        contract.acceptedContract.dlcTransactions.fund.txid) confirmations)
      (enough : nbConfirmations ≤ confirmations) :
      Warranted manager steps (.signed contract) (.confirmed contract)
  | preClose {contract : SignedContract} {cet : Transaction}
      {attestations : List (Nat × OracleAttestation)}
      (built : BuiltCet manager steps contract cet attestations)
      (settling :
        (∃ confirmations : Nat,
          Reported steps (.getTransactionConfirmations cet.txid) confirmations ∧
            1 ≤ confirmations ∧ confirmations < nbConfirmations) ∨
        Reported steps (.sendTransaction cet) ()) :
      Warranted manager steps (.confirmed contract)
        (.preClosed ⟨contract, some (attestations.map Prod.snd), cet⟩)
  | close {contract : SignedContract} {cet : Transaction}
      {attestations : List (Nat × OracleAttestation)} {confirmations : Nat}
      (built : BuiltCet manager steps contract cet attestations)
      (reported :
        Reported steps (.getTransactionConfirmations cet.txid) confirmations)
      (enough : nbConfirmations ≤ confirmations) :
      Warranted manager steps (.confirmed contract)
        (.closed (closedContract manager contract
          (some (attestations.map Prod.snd)) cet))
  | settle {contract : PreClosedContract} {confirmations : Nat}
      (reported : Reported steps
        (.getTransactionConfirmations contract.signedCet.txid) confirmations)
      (enough : nbConfirmations ≤ confirmations) :
      Warranted manager steps (.preClosed contract)
        (.closed (closedContract manager contract.signedContract
          contract.attestations contract.signedCet))
  | refund {contract : SignedContract} {unixtime : Nat}
      (reported : Reported steps .getUnixtime unixtime)
      (passed :
        contract.acceptedContract.dlcTransactions.refund.lockTime ≤ unixtime)
      (settling :
        (∃ confirmations : Nat,
          Reported steps (.getTransactionConfirmations
            contract.acceptedContract.dlcTransactions.refund.txid) confirmations ∧
          1 ≤ confirmations) ∨
        ∃ refund, Reported steps (.getSignedRefund contract) refund ∧
          Reported steps (.sendTransaction refund) ()) :
      Warranted manager steps (.confirmed contract) (.refunded contract)

/-- Warrants survive further steps. -/
theorem Warranted.mono {manager : Manager} {steps more : List WalletStep}
    {source target : DlcContract} (warranted : Warranted manager steps source target)
    (included : steps ⊆ more) : Warranted manager more source target := by
  cases warranted with
  | confirm reported enough => exact .confirm (reported.mono included) enough
  | preClose built settling =>
      refine .preClose (built.mono included) ?_
      rcases settling with ⟨confirmations, reported, bounds⟩ | sent
      · exact .inl ⟨confirmations, reported.mono included, bounds⟩
      · exact .inr (sent.mono included)
  | close built reported enough =>
      exact .close (built.mono included) (reported.mono included) enough
  | settle reported enough => exact .settle (reported.mono included) enough
  | refund reported passed settling =>
      refine .refund (reported.mono included) passed ?_
      rcases settling with ⟨confirmations, given, confirmed⟩ | ⟨refund, built, sent⟩
      · exact .inl ⟨confirmations, given.mono included, confirmed⟩
      · exact .inr ⟨refund, built.mono included, sent.mono included⟩

theorem Warranted.prepend {manager : Manager} {steps : List WalletStep}
    {source target : DlcContract} (warranted : Warranted manager steps source target)
    (earlier : List WalletStep) : Warranted manager (earlier ++ steps) source target :=
  warranted.mono (List.subset_append_right _ _)

/-- A warranted update keeps both identifiers and does not move the record. -/
theorem Warranted.ids {manager : Manager} {steps : List WalletStep}
    {source target : DlcContract}
    (warranted : Warranted manager steps source target) :
    target.getId = source.getId ∧
      target.getTemporaryId = source.getTemporaryId ∧ target.isMoved = false := by
  cases warranted <;> exact ⟨rfl, rfl, rfl⟩

/-- What warrants an update has been asked for. -/
theorem Warranted.ne_nil {manager : Manager} {steps : List WalletStep}
    {source target : DlcContract}
    (warranted : Warranted manager steps source target) : steps ≠ [] := by
  rintro rfl
  have none {request : WalletRequest} {reply : request.Reply} :
      ¬ Reported [] request reply := by
    rintro ⟨_, _, member⟩
    cases member
  cases warranted with
  | confirm reported => exact none reported
  | preClose built =>
      obtain ⟨_, _, _, _, reported⟩ := built
      exact none reported
  | close _ reported => exact none reported
  | settle reported => exact none reported
  | refund reported => exact none reported

/-! ## Settlement transactions -/

/-- The two ways in which a confirmed contract is settled. -/
inductive Settlement where
  | cet
  | refund
  deriving DecidableEq, Repr

/-- The settlement transaction that was made last, from the latest step on. -/
def made : List WalletStep → Option (Settlement × SignedContract × Transaction)
  | ⟨_, .getSignedRefund contract, .ok refund, _⟩ :: _ =>
      some (.refund, contract, refund)
  | ⟨_, .getTransactionConfirmations _, _, _⟩ ::
      ⟨_, .getSignedCet contract _ _ _, .ok cet, _⟩ :: _ =>
      some (.cet, contract, cet)
  | _ => none

/-- The settlement transaction that the steps end with making: the signed refund
of a contract, or its CET whose confirmations were then asked for. -/
def made? (steps : List WalletStep) :
    Option (Settlement × SignedContract × Transaction) :=
  made steps.reverse

theorem made?_append {steps : List WalletStep}
    {settlement : Settlement × SignedContract × Transaction}
    (ends : made? steps = some settlement) (earlier : List WalletStep) :
    made? (earlier ++ steps) = some settlement := by
  unfold made? at ends ⊢
  rw [List.reverse_append]
  revert ends
  generalize steps.reverse = latest
  unfold made
  intro ends
  split at ends
  · exact ends
  · exact ends
  · cases ends

/-- The record that a settlement leaves. -/
def Settlement.Records : Settlement → SignedContract → Transaction → DlcContract → Prop
  | cet, contract, transaction, target =>
      ∃ attestations, target = .preClosed ⟨contract, attestations, transaction⟩
  | refund, contract, _, target => target = .refunded contract

/-- The steps end with the request to publish the settlement transaction just
made of a contract. -/
inductive Publishes (contract : SignedContract) (target : DlcContract) :
    List WalletStep → Except DlcError Unit → Prop
  | mk {front : List WalletStep} {kind : Settlement} {transaction : Transaction}
      {before after : ContractStore} {answer : Except DlcError Unit}
      (inquiries : Inquiries front)
      (ends : made? front = some (kind, contract, transaction))
      (records : kind.Records contract transaction target) :
      Publishes contract target
        (front ++ [⟨before, .sendTransaction transaction, answer, after⟩]) answer

/-! ## Traces -/

/-- The steps before the update to a contract: inquiries, and possibly the
publication that the update records. -/
inductive Prepares (source target : DlcContract) (steps : List WalletStep) : Prop
  | inquired (inquiries : Inquiries steps)
  | published {contract : SignedContract} (confirmed : source = .confirmed contract)
      (publishes : Publishes contract target steps (.ok ()))

/-- The steps of a completed check of `source` and what it returned. -/
inductive CheckTrace (manager : Manager) (source : DlcContract) :
    List WalletStep → Except DlcError Bool → Prop
  | inquired {steps : List WalletStep} {result : Except DlcError Bool}
      (inquiries : Inquiries steps) (still : result ≠ .ok true) :
      CheckTrace manager source steps result
  | unpublished {steps : List WalletStep} {contract : SignedContract}
      {target : DlcContract} {error : DlcError}
      (confirmed : source = .confirmed contract)
      (publishes : Publishes contract target steps (.error error)) :
      CheckTrace manager source steps (.error error)
  | wrote {front : List WalletStep} {target : DlcContract}
      {before after : ContractStore} {answer : Except DlcError Unit}
      (prepares : Prepares source target front)
      (warranted : Warranted manager front source target) :
      CheckTrace manager source
        (front ++ [⟨before, .updateContract target, answer, after⟩])
        (answer.map fun _ => target.refunded?.isNone)

/-- Every write is an update warranted by the steps before it. -/
def Orderly (manager : Manager) (source : DlcContract) (past : List WalletStep)
    (step : WalletStep) : Prop :=
  step.request.isWrite = true →
    ∃ target, step.request = .updateContract target ∧
      Warranted manager past source target

end LinkManager

end DlcStack
