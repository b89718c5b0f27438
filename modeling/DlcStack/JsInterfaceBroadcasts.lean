import DlcStack.JsInterfaceFailures
import DlcStack.ManagerRecords

/-!
# What the browser wallet says of its broadcasts

`countersign_and_broadcast` looks the contract up once more after it has broadcast the
funding transaction, and fails when the look-up does.  It also fails when the contract is not
listed any more because a periodic check that runs meanwhile has found it confirmed.
-/

namespace DlcStack

namespace JsDlcInterface

open Program hiding ask
open LinkManager

/-- The crate returns the funding transaction of the contract that it verifies. -/
def fundsContract (step : WalletStep) : Bool :=
  match step with
  | ⟨_, .verifySignedContract accepted _, .ok (_, transaction), _⟩ =>
      transaction.txid = accepted.dlcTransactions.fund.txid
  | _ => true

/-- What other calls make of the store meanwhile: no contract becomes signed. -/
def NothingSigned (before after : ContractStore) : Prop :=
  ∀ id signed, after.find? id = some (.signed signed) → before.find? id = some (.signed signed)

/-- The world where other calls may be at work between the requests. -/
abbrev BusyWorld : Environment ContractStore WalletRequest WalletRequest.Answer :=
  Environment.amidst TornWorld NothingSigned

/-- The world of such a crate. -/
abbrev Funding : Environment ContractStore WalletRequest WalletRequest.Answer :=
  Environment.restrict BusyWorld (fundsContract · = true)

section NothingSigned

variable {before after : ContractStore}

theorem NothingSigned.refl (store : ContractStore) : NothingSigned store store :=
  fun _ _ found => found

theorem NothingSigned.trans {middle : ContractStore} (first : NothingSigned before middle)
    (second : NothingSigned middle after) : NothingSigned before after :=
  fun id signed found => first id signed (second id signed found)

/-- A request that stores no contract under its final identifier for the first time. -/
theorem nothingSigned_of_stays {request : WalletRequest} {answer : request.Answer}
    (stays : Stays request) (served : TornWorld before request answer after) :
    NothingSigned before after := by
  intro id signed found
  cases request with
  | createContract contract =>
      rcases served.find?_create id with same | ⟨-, created⟩
      · exact same.symm.trans found
      · cases created.symm.trans found
  | updateContract contract =>
      rcases served.find?_update id with same | ⟨-, updated⟩ | ⟨-, -, erased⟩
      · exact same.symm.trans found
      · obtain rfl := Option.some.inj (updated.symm.trans found)
        cases stays
      · cases erased.symm.trans found
  | _ =>
      obtain rfl := served.unchanged rfl
      exact found

/-- However far any number of calls have come that only make such requests, as periodic
checks do, no contract has become signed. -/
theorem nothingSigned_of_interleaved {ι β : Type} [DecidableEq ι]
    {pool current : Pool ι ContractStore WalletRequest WalletRequest.Answer β}
    {trace : List (ι × WalletStep)}
    (run : Interleaved TornWorld AnyStep pool before trace current after)
    (asks : ∀ index, Asks Stays (pool index).program) :
    NothingSigned before after ∧ ∀ index, Asks Stays (current index).program := by
  induction run with
  | idle => exact ⟨.refl _, asks⟩
  | @move trace current middle after index request next answer _ isAsk served _ ih =>
      obtain ⟨nothing, asks⟩ := ih
      have mayAsk := asks index
      rw [isAsk] at mayAsk
      refine ⟨nothing.trans (nothingSigned_of_stays mayAsk.1 served), fun other => ?_⟩
      by_cases same : other = index
      · subst same
        rw [Pool.advance_same]
        exact mayAsk.2 answer
      · rw [Pool.advance_other _ same]
        exact asks other

end NothingSigned

/-- The requests that decide what is known of the broadcast. -/
def decides : WalletRequest → Bool
  | .sendTransaction _ => true
  | .getSignedContracts => true
  | _ => false

/-- The step hands over the transaction with an identifier, with success. -/
def handsOver (txid : Txid) (step : WalletStep) : Bool :=
  match step.request with
  | .sendTransaction transaction => transaction.txid = txid && !failed step
  | _ => false

section Reached

variable (reached : WalletStep → Bool)

/-- The step broadcasts a transaction.  That of a failed step may have reached the network
all the same. -/
def broadcasts (step : WalletStep) : Bool :=
  match step.request with
  | .sendTransaction _ => !failed step || reached step
  | _ => false

/-- No contract of the message is among these. -/
def lacks (contracts : List SignedContract) : Except String SignDlc → Bool
  | .ok sign => contracts.all fun contract =>
      contract.acceptedContract.contractId ≠ sign.contractId
  | .error _ => true

/-- The step fails where the transaction is broadcast, or does not list its contract. -/
def misleads (signJson : Except String SignDlc) (step : WalletStep) : Bool :=
  match step with
  | ⟨_, .sendTransaction _, _, _⟩ => failed step && reached step
  | ⟨_, .getSignedContracts, .ok contracts, _⟩ => lacks contracts signJson
  | ⟨_, .getSignedContracts, .error _, _⟩ => true
  | _ => false

/-- A transaction identifier is that of the funding transaction of the contract in the
message, which was handed over; an error comes without a broadcast. -/
structure Truthful (signJson : Except String SignDlc) (start : ContractStore)
    (steps : List WalletStep) (result : Except String Txid) : Prop where
  ok : ∀ txid, result = .ok txid → ∃ sign accepted, signJson = .ok sign ∧
    start.find? sign.contractId = some (.accepted accepted) ∧
    accepted.dlcTransactions.fund.txid = txid ∧ ∃ step ∈ steps, handsOver txid step = true
  error : ∀ error, result = .error error → ∀ step ∈ steps, broadcasts reached step = false

/-- How answering a sign message ends: the call fails before the broadcast or at it, or the
transaction is handed over and the contract stored. -/
def Signs {α : Type} (sign : SignDlc) (start : ContractStore) (steps : List WalletStep)
    (result : Except DlcError α) (store : ContractStore) : Prop :=
  (∃ error, result = .error error) ∧
      ((∀ step ∈ steps, broadcasts reached step = false) ↔
        ∀ step ∈ steps, misleads reached (.ok sign) step = false) ∨
    (∃ value, result = .ok value) ∧
      (∀ step ∈ steps, misleads reached (.ok sign) step = false) ∧
      ∃ signed : SignedContract,
        start.find? sign.contractId = some (.accepted signed.acceptedContract) ∧
        (∀ other, store.find? sign.contractId = some (.signed other) → other = signed) ∧
        ∃ step ∈ steps,
          handsOver signed.acceptedContract.dlcTransactions.fund.txid step = true

end Reached

section Handlers

variable {reached : WalletStep → Bool} {sign : SignDlc} {start store : ContractStore}
  {past : List WalletStep} {α : Type}

/-- Nothing has been broadcast or listed. -/
def Quiet (steps : List WalletStep) : Prop :=
  ∀ step ∈ steps, decides step.request = false

theorem Quiet.snoc {before after : ContractStore} {request : WalletRequest}
    {answer : request.Answer} (quiet : Quiet past) (last : decides request = false) :
    Quiet (past ++ [⟨before, request, answer, after⟩]) := by
  intro other member
  rcases List.mem_append.mp member with member | member
  · exact quiet other member
  · rwa [List.mem_singleton.mp member]

theorem Quiet.not_broadcasts (quiet : Quiet past) :
    ∀ step ∈ past, broadcasts reached step = false := by
  rintro ⟨before, request, answer, after⟩ member
  have silent := quiet _ member
  cases request <;> first
    | rfl
    | cases silent

theorem Quiet.not_misleads {signJson : Except String SignDlc} (quiet : Quiet past) :
    ∀ step ∈ past, misleads reached signJson step = false := by
  rintro ⟨before, request, answer, after⟩ member
  have silent := quiet _ member
  cases request <;> first
    | rfl
    | cases silent

/-- An error before the broadcast. -/
theorem Quiet.signs_error (quiet : Quiet past) (error : DlcError) :
    Signs reached sign start past (.error error : Except DlcError α) store :=
  .inl ⟨⟨error, rfl⟩, fun _ => quiet.not_misleads, fun _ => quiet.not_broadcasts⟩

/-- Every run answers the sign message as described. -/
abbrev Answers (reached : WalletStep → Bool) (sign : SignDlc) (start : ContractStore)
    (past : List WalletStep) (store : ContractStore) (operation : ManagerM α) : Prop :=
  Always Funding Eq (fun _ _ => True) (Signs reached sign start) past store operation.run

/-- The rule of a request before the broadcast. -/
theorem answers_ask {request : WalletRequest} {rest : request.Reply → ManagerM α}
    (silent : decides request = false) (quiet : Quiet past)
    (replied : ∀ reply after, Funding store request (.ok reply) after →
      Quiet (past ++ [⟨store, request, .ok reply, after⟩]) →
        Answers reached sign start (past ++ [⟨store, request, .ok reply, after⟩]) after
          (rest reply)) :
    Answers reached sign start past store (LinkManager.ask request >>= rest) := by
  refine always_ask_bind fun before moved answer after served => ⟨trivial, ?_⟩
  obtain rfl := moved
  cases answer with
  | ok reply => exact replied reply after served (quiet.snoc silent)
  | error error => exact Quiet.signs_error (quiet.snoc silent) error

/-- The broadcast of the transaction of a contract that is stored. -/
theorem answers_broadcast {signed : SignedContract} {transaction : Transaction}
    (quiet : Quiet past)
    (stored : start.find? sign.contractId = some (.accepted signed.acceptedContract))
    (kept : ∀ other, store.find? sign.contractId = some (.signed other) → other = signed)
    (funds : transaction.txid = signed.acceptedContract.dlcTransactions.fund.txid) :
    Answers reached sign start past store (LinkManager.ask (.sendTransaction transaction)) := by
  refine (always_ask _ _).mpr fun before moved answer after served => ⟨trivial, ?_⟩
  obtain rfl := moved
  obtain ⟨⟨middle, sent, meanwhile⟩, -⟩ := served
  obtain rfl := sent.unchanged rfl
  have last := List.mem_append_right past (List.mem_singleton_self
    (⟨middle, .sendTransaction transaction, answer, after⟩ : WalletStep))
  cases answer with
  | ok reply =>
      refine .inr ⟨⟨_, rfl⟩, fun step member => ?_, signed, stored, fun other found => ?_, _,
        last, ?_⟩
      · rcases List.mem_append.mp member with member | member
        · exact quiet.not_misleads step member
        · rw [List.mem_singleton.mp member]
          rfl
      · exact kept other (meanwhile _ _ found)
      · simp [handsOver, failed, funds]
  | error error =>
      refine .inl ⟨⟨error, rfl⟩, fun silent step member => ?_, fun silent step member => ?_⟩
      · rcases List.mem_append.mp member with member | member
        · exact quiet.not_misleads step member
        · rw [List.mem_singleton.mp member]
          exact silent _ last
      · rcases List.mem_append.mp member with member | member
        · exact quiet.not_broadcasts step member
        · rw [List.mem_singleton.mp member]
          exact silent _ last

theorem answers_onSignMessage {manager : Manager} (quiet : Quiet past)
    (counterParty : PublicKey) :
    Answers reached sign start past start (onSignMessage manager sign counterParty) := by
  unfold onSignMessage getContractInState
  rw [bind_assoc]
  refine answers_ask rfl quiet fun found after served quiet => ?_
  obtain ⟨⟨middle, read, -⟩, -⟩ := served
  obtain rfl : middle = start := read.unchanged rfl
  have stored := ((read.world (by simp)).2 found rfl).symm
  cases found with
  | none => exact quiet.signs_error _
  | some contract =>
      dsimp only
      split_ifs with stranger
      · exact quiet.signs_error _
      · cases contract with
        | accepted accepted =>
            have addressed : accepted.contractId = sign.contractId :=
              (UniqueTable.find?_eq_some_iff.mp stored).2
            refine (always_run_lift_bind _ _).mpr ((always_ask _ _).mpr ?_)
            intro before moved answer last served
            obtain rfl := moved
            refine ⟨trivial, ?_⟩
            cases answer with
            | error error =>
                refine answers_ask rfl (quiet.snoc rfl) fun _ _ _ quiet => ?_
                exact quiet.signs_error error
            | ok reply =>
                obtain ⟨signed, transaction⟩ := reply
                obtain ⟨⟨verified, read, -⟩, funds⟩ := served
                obtain rfl := (read.world (by simp)).2 signed transaction rfl
                refine answers_ask rfl (quiet.snoc rfl) fun _ after served quiet => ?_
                obtain ⟨⟨written, updated, meanwhile⟩, -⟩ := served
                refine answers_broadcast quiet stored (fun other found => ?_)
                  (of_decide_eq_true funds)
                have isSigned := meanwhile _ _ found
                rw [← addressed] at isSigned
                exact DlcContract.signed.inj
                  (Option.some.inj (isSigned.symm.trans updated.stored))
        | _ => exact quiet.signs_error _

/-- The contract that is listed under the identifier is the one that was signed. -/
theorem eq_of_find?_listed {signed other : SignedContract} {contracts : List SignedContract}
    {id : ContractId} (lists : ContractStore.Lists store DlcContract.signed? contracts)
    (kept : ∀ other, store.find? id = some (.signed other) → other = signed)
    (found : contracts.find? (fun contract => contract.acceptedContract.contractId = id) =
      some other) : other = signed := by
  have same : other.acceptedContract.contractId = id := by
    simpa using List.find?_some found
  obtain ⟨contract, otherIn, isOther⟩ :=
    List.mem_filterMap.mp (lists.mem_iff.mp (List.mem_of_find?_eq_some found))
  obtain rfl : contract = .signed other := by
    cases contract <;> cases isOther
    rfl
  exact kept other (UniqueTable.find?_eq_some_iff.mpr ⟨otherIn, same⟩)

theorem broadcasts_of_handsOver {txid : Txid} {step : WalletStep}
    (hands : handsOver txid step = true) : broadcasts reached step = true := by
  obtain ⟨before, request, answer, after⟩ := step
  cases request with
  | sendTransaction transaction =>
      have worked := ((Bool.and_eq_true _ _).mp hands).2
      simp only [broadcasts, worked, Bool.true_or]
  | _ => cases hands

/-- An error is truthful if nothing was broadcast. -/
theorem truthful_error_iff {signJson : Except String SignDlc} {steps : List WalletStep}
    {error : String} :
    Truthful reached signJson start steps (.error error) ↔
      ∀ step ∈ steps, broadcasts reached step = false := by
  constructor
  · exact fun truthful => truthful.error error rfl
  · exact fun silent => ⟨by rintro _ ⟨⟩, fun _ _ => silent⟩

/-- After the broadcast an error is not truthful. -/
theorem truthful_broadcast_iff {signJson : Except String SignDlc} {txid : Txid}
    {error : String} {last : WalletStep}
    (hands : ∃ step ∈ past, handsOver txid step = true)
    (mislead : misleads reached signJson last = true) :
    Truthful reached signJson start (past ++ [last]) (.error error) ↔
      ∀ step ∈ past ++ [last], misleads reached signJson step = false := by
  refine truthful_error_iff.trans ⟨fun silent => ?_, fun honest => ?_⟩
  · obtain ⟨step, member, hands⟩ := hands
    have silent := silent step (List.mem_append_left _ member)
    rw [broadcasts_of_handsOver hands] at silent
    cases silent
  · have honest := honest last (List.mem_append_right _ (List.mem_singleton_self _))
    exact absurd (honest.symm.trans mislead) Bool.false_ne_true

theorem truthful_countersignAndBroadcast (manager : Manager)
    (signJson : Except String SignDlc) :
    Always Funding Eq (fun _ _ => True)
      (fun steps result _ => Truthful reached signJson start steps result ↔
        ∀ step ∈ steps, misleads reached signJson step = false)
      [] start (countersignAndBroadcast manager signJson).run := by
  refine (always_adapt _ _).mpr ?_
  cases signJson with
  | error error => exact truthful_error_iff.trans (by simp)
  | ok sign =>
      refine (always_run_bind (toWalletError manager _) _).mpr ((always_adapt _ _).mpr
        ((always_run_bind _ _).mpr ?_))
      have quiet : Quiet [] := by simp [Quiet]
      have answers : Answers reached sign start [] start
          (onSignMessage manager sign staticCounterpartyNodeId) :=
        answers_onSignMessage quiet _
      refine answers.post_mono fun past result store signs => ?_
      rcases signs with ⟨⟨error, rfl⟩, same⟩ | ⟨⟨value, rfl⟩, honest, signed, stored,
        kept, handsOver⟩
      · exact truthful_error_iff.trans same
      · refine (always_run_bind (toWalletError manager _) _).mpr ((always_adapt _ _).mpr ?_)
        refine (always_ask _ _).mpr fun before moved answer after served => ⟨trivial, ?_⟩
        obtain rfl := moved
        obtain ⟨⟨middle, read, -⟩, -⟩ := served
        obtain rfl := read.unchanged rfl
        cases answer with
        | error error => exact truthful_broadcast_iff handsOver rfl
        | ok contracts =>
            have lists := (read.world (by simp)).2 contracts rfl
            refine (always_ret _).mpr ?_
            dsimp only [Except.mapError]
            cases found : contracts.find? fun contract =>
                contract.acceptedContract.contractId = sign.contractId with
            | none =>
                refine truthful_broadcast_iff handsOver ?_
                simpa [misleads, lacks] using found
            | some other =>
                obtain rfl := eq_of_find?_listed lists kept found
                obtain ⟨step, member, hands⟩ := handsOver
                refine ⟨fun _ step member => ?_, fun _ => ⟨?_, by rintro _ ⟨⟩⟩⟩
                · rcases List.mem_append.mp member with member | member
                  · exact honest step member
                  · rw [List.mem_singleton.mp member]
                    have listed := List.mem_of_find?_eq_some found
                    have named := List.find?_some found
                    exact List.all_eq_false.mpr ⟨_, listed, by simpa using named⟩
                · rintro _ ⟨⟩
                  exact ⟨sign, _, rfl, stored, rfl, step, List.mem_append_left _ member, hands⟩

/-- What the call returns is true of the broadcast exactly if no request fails where the
transaction is broadcast, and the contract is still listed, whatever calls that sign no
contract do meanwhile. -/
theorem countersign_truthful_iff {manager : Manager} {signJson : Except String SignDlc}
    {start final : ContractStore} {steps : List WalletStep} {result : Except String Txid}
    (run : Runs BusyWorld (countersignAndBroadcast manager signJson).run start steps result
      final)
    (funds : ∀ step ∈ steps, fundsContract step = true) (reached : WalletStep → Bool) :
    Truthful reached signJson start steps result ↔
      ∀ step ∈ steps, misleads reached signJson step = false :=
  ((truthful_countersignAndBroadcast manager signJson).of_runs (run.restrict funds)).2

end Handlers

/-! ## A message to countersign -/

/-- A contract that waits for the sign message of the router. -/
def sampleWaiting : AcceptedContract :=
  ⟨⟨.replicate 32 0, (sampleOffer (.replicate 32 0)).contractInfo, staticCounterpartyNodeId⟩,
    [.enum], ⟨⟨"fund", 0⟩, ⟨"refund", 100⟩, "script"⟩, .replicate 32 1⟩

/-- Others that verify the message and broadcast the transaction; the signed contracts can
be listed or not. -/
def signingOthers (listing : Bool) : Others where
  down
    | .getSignedContracts => !listing
    | _ => false
  answers
    | .verifySignedContract accepted _ => .ok (⟨accepted, none⟩, accepted.dlcTransactions.fund)
    | .sendTransaction _ => .ok ()
    | _ => .error (.ioError "not answered")

/-- The message is answered. -/
def sampleSigning (listing : Bool) : List WalletStep × Except String Txid × ContractStore :=
  eval (serve (signingOthers listing))
    (countersignAndBroadcast sampleManager (.ok ⟨sampleWaiting.contractId⟩)).run
    (sampleStore (.accepted sampleWaiting))

theorem runs_sampleSigning (listing : Bool) :
    Runs (World False)
      (countersignAndBroadcast sampleManager (.ok ⟨sampleWaiting.contractId⟩)).run
      (sampleStore (.accepted sampleWaiting)) (sampleSigning listing).1
      (sampleSigning listing).2.1 (sampleSigning listing).2.2 :=
  runs_eval _ (world_serve False _) _ _

/-- What a periodic check makes of a store in some steps, if all transactions are
confirmed. -/
def sampleChecked (store : ContractStore) :
    Pool Unit ContractStore WalletRequest WalletRequest.Answer (Except DlcError (List Report)) ×
      ContractStore :=
  Pool.schedule (serve (sampleOthers (fun _ => 6) false 0 fun _ => false))
    (List.replicate 4 ()) (fun _ => Thread.start (LinkManager.periodicCheck sampleManager).run)
    store

theorem nothingSigned_sampleChecked (store : ContractStore) :
    NothingSigned store (sampleChecked store).2 :=
  (nothingSigned_of_interleaved (interleaved_schedule _
    (fun store request => .inl (world_serve True _ store request)) _ (metAlong_anyStep ..)
    .idle) fun _ => asks_periodicCheck sampleManager).1

/-- The transaction is broadcast and, if the call is overtaken, found confirmed by a periodic
check. -/
def serveOvertaken (overtaken : Bool) :
    Responder ContractStore WalletRequest WalletRequest.Answer
  | store, .sendTransaction _ => (.ok (), if overtaken then (sampleChecked store).2 else store)
  | store, request => serve (signingOthers true) store request

theorem busyWorld_serveOvertaken (overtaken : Bool) (store : ContractStore)
    (request : WalletRequest) :
    BusyWorld store request (serveOvertaken overtaken store request).1
      (serveOvertaken overtaken store request).2 := by
  cases request with
  | sendTransaction transaction =>
      refine ⟨store, .inl rfl, ?_⟩
      unfold serveOvertaken
      dsimp only
      split_ifs
      · exact nothingSigned_sampleChecked store
      · exact .refl store
  | _ => exact ⟨_, .inl (world_serve True (signingOthers true) store _), .refl _⟩

def sampleOvertaken (overtaken : Bool) :
    List WalletStep × Except String Txid × ContractStore :=
  eval (serveOvertaken overtaken)
    (countersignAndBroadcast sampleManager (.ok ⟨sampleWaiting.contractId⟩)).run
    (sampleStore (.accepted sampleWaiting))

/-- The transaction of a contract that is listed was handed over; so was that of a contract
that a periodic check has moved on. -/
theorem countersign_truthful_sampleSigning :
    Truthful (fun _ => true) (.ok ⟨sampleWaiting.contractId⟩)
        (sampleStore (.accepted sampleWaiting)) (sampleOvertaken false).1 (.ok "fund") ∧
      ¬ Truthful (fun _ => false) (.ok ⟨sampleWaiting.contractId⟩)
        (sampleStore (.accepted sampleWaiting)) (sampleOvertaken true).1
        (sampleOvertaken true).2.1 := by
  have ran (overtaken : Bool) : Runs BusyWorld _ _ _ _ _ :=
    runs_eval (serveOvertaken overtaken) (busyWorld_serveOvertaken overtaken)
      (countersignAndBroadcast sampleManager (.ok ⟨sampleWaiting.contractId⟩)).run
      (sampleStore (.accepted sampleWaiting))
  constructor
  · exact (countersign_truthful_iff (ran false) (by decide +kernel) _).mpr (by decide +kernel)
  · intro truthful
    have honest := (countersign_truthful_iff (ran true) (by decide +kernel) _).mp truthful
    exact absurd honest (by decide +kernel)

/-- A broadcast contract that can not be listed is reported as an error. -/
theorem not_countersign_truthful :
    ¬ ∀ (manager : Manager) (signJson : Except String SignDlc) (start final : ContractStore)
        (steps : List WalletStep) (result : Except String Txid),
        Runs (World False) (countersignAndBroadcast manager signJson).run start steps result
          final →
        (∀ step ∈ steps, fundsContract step = true) →
        Truthful (fun _ => false) signJson start steps result := by
  intro claimed
  have truthful := claimed _ _ _ _ _ _ (runs_sampleSigning false) (by decide +kernel)
  have silent := truthful.error _ rfl
  exact absurd silent (by decide +kernel)

end JsDlcInterface

end DlcStack
