import DlcStack.ContractStore
import DlcStack.EffectProgram

/-!
# What a wallet asks of others

The requests that the `Manager` and the wallet around it make: of the store of
contracts, the blockchain, the attestors, the clock, the `dlc_manager` crate
and the blockchain interface.  Every request may fail.  Only the store has a
state here; the others answer as they like, within what the crate promises of
the contracts it returns.
-/

namespace DlcStack

namespace LinkManager

open Program

structure OracleInput where
  publicKeys : List PublicKey
  eventId : String
  threshold : Nat
  deriving DecidableEq, Repr

structure ContractInputInfo where
  oracles : OracleInput
  deriving DecidableEq, Repr

structure ContractInput where
  contractInfos : List ContractInputInfo
  deriving DecidableEq, Repr

structure OfferDlc where
  temporaryContractId : ContractId
  contractInfo : List ContractInfo
  deriving DecidableEq, Repr

inductive DlcMessage where
  | offer (message : OfferDlc)
  | accept (message : AcceptDlc)
  | sign (message : SignDlc)
  | other
  deriving DecidableEq, Repr

/-- The body of a request to the blockchain interface. -/
structure Notification where
  uuid : String
  btcTxId : Txid
  chain : String
  deriving DecidableEq, Repr

inductive WalletRequest where
  -- `AsyncStorage`
  | getContract (id : ContractId)
  | createContract (contract : OfferedContract)
  | updateContract (contract : DlcContract)
  | getSignedContracts
  | getConfirmedContracts
  | getPreclosedContracts
  -- `AsyncBlockchain`
  | getTransactionConfirmations (txid : Txid)
  | sendTransaction (transaction : Transaction)
  | getNetwork
  -- `AsyncOracle`
  | getAnnouncement (oracle : PublicKey) (eventId : String)
  | getAttestation (oracle : PublicKey) (eventId : String)
  -- the clock
  | getUnixtime
  -- `Wallet`
  | importAddress (scriptPubkey network : String)
  -- `dlc_manager` and `dlc_messages`
  | validateInput (input : ContractInput)
  | offerContract (input : ContractInput)
      (announcements : List (List OracleAnnouncement)) (refundDelay : Nat)
      (counterParty : PublicKey) (feeDenominator : Nat) (feeAddress : String)
  | validateOfferedContract (contract : OfferedContract)
  | validateOffer (message : OfferDlc) (minTimeout maxTimeout : Nat)
  | tryFromOfferDlc (message : OfferDlc) (counterParty : PublicKey)
  | acceptContract (contract : OfferedContract)
  | verifyAcceptedAndSignContract (contract : OfferedContract) (message : AcceptDlc)
  | verifySignedContract (contract : AcceptedContract) (message : SignDlc)
  | getSignedCet (contract : SignedContract) (info : ContractInfo)
      (adaptor : AdaptorInfo) (attestations : List (Nat × OracleAttestation))
  | getSignedRefund (contract : SignedContract)
  -- the attestors and the blockchain interface
  | getChain (attestor : PublicKey) (uuid : String)
  | post (url : String) (body : Notification)
  deriving DecidableEq

namespace WalletRequest

/-- What a request that succeeds returns. -/
abbrev Reply : WalletRequest → Type
  | getContract _ => Option DlcContract
  | createContract _ => Unit
  | updateContract _ => Unit
  | getSignedContracts => List SignedContract
  | getConfirmedContracts => List SignedContract
  | getPreclosedContracts => List PreClosedContract
  | getTransactionConfirmations _ => Nat
  | sendTransaction _ => Unit
  | getNetwork => String
  | getAnnouncement _ _ => OracleAnnouncement
  | getAttestation _ _ => OracleAttestation
  | getUnixtime => Nat
  | importAddress _ _ => Unit
  | validateInput _ => Unit
  | offerContract .. => OfferedContract × OfferDlc
  | validateOfferedContract _ => Unit
  | validateOffer .. => Unit
  | tryFromOfferDlc _ _ => OfferedContract
  | acceptContract _ => AcceptedContract × AcceptDlc
  | verifyAcceptedAndSignContract _ _ => SignedContract × SignDlc
  | verifySignedContract _ _ => SignedContract × Transaction
  | getSignedCet .. => Transaction
  | getSignedRefund _ => Transaction
  | getChain _ _ => String
  | post _ _ => Unit

abbrev Answer (request : WalletRequest) : Type :=
  Except DlcError request.Reply

/-- The requests that may change the store. -/
def isWrite : WalletRequest → Bool
  | createContract _ => true
  | updateContract _ => true
  | _ => false

/-- The requests for the contracts in one state. -/
def isListing : WalletRequest → Bool
  | getSignedContracts => true
  | getConfirmedContracts => true
  | getPreclosedContracts => true
  | _ => false

/-- The requests with which a check informs itself. -/
def isInquiry : WalletRequest → Bool
  | getTransactionConfirmations _ => true
  | getAttestation _ _ => true
  | getUnixtime => true
  | getSignedCet .. => true
  | getSignedRefund _ => true
  | _ => false

/-- The requests that notify the blockchain interface. -/
def isPost : WalletRequest → Bool
  | post _ _ => true
  | _ => false

theorem isInquiry_reads {request : WalletRequest} (asks : request.isInquiry = true) :
    request.isWrite = false ∧ request.isListing = false ∧ request.isPost = false := by
  cases request <;> first
    | exact ⟨rfl, rfl, rfl⟩
    | cases asks

theorem isListing_reads {request : WalletRequest} (asks : request.isListing = true) :
    request.isWrite = false ∧ request.isPost = false := by
  cases request <;> first
    | exact ⟨rfl, rfl⟩
    | cases asks

end WalletRequest

abbrev WalletStep := Step ContractStore WalletRequest WalletRequest.Answer

def failed (step : WalletStep) : Bool :=
  match step.answer with
  | .ok _ => false
  | .error _ => true

/-- An identifier that no stored contract has or had. -/
def Fresh (store : ContractStore) (id : ContractId) : Prop :=
  ∀ contract ∈ store.rows, contract.getId ≠ id ∧ contract.getTemporaryId ≠ id

/-- A write takes its effect and succeeds, or fails; a failed write has no
effect, or may have had it where replies can be lost. -/
def Writes (repliesLost : Prop) (before : ContractStore)
    (effect : Option ContractStore) (answer : Except DlcError Unit)
    (after : ContractStore) : Prop :=
  answer = .ok () ∧ effect = some after ∨
    (∃ error, answer = .error error) ∧
      (after = before ∨ repliesLost ∧ effect = some after)

/-- Which answers others may give and what becomes of the store.  The crate
builds the contracts it returns on the ones it is given, and numbers a contract
that is accepted or signed after an offer with a fresh identifier. -/
def World (repliesLost : Prop) :
    Environment ContractStore WalletRequest WalletRequest.Answer
  | before, .getContract id, answer, after =>
      after = before ∧ ∀ found, answer = .ok found → found = before.find? id
  | before, .createContract contract, answer, after =>
      Writes repliesLost before
        (ContractStore.createContract before contract) answer after
  | before, .updateContract contract, answer, after =>
      Writes repliesLost before
        (ContractStore.updateContract before contract) answer after
  | before, .getSignedContracts, answer, after =>
      after = before ∧ ∀ contracts, answer = .ok contracts →
        ContractStore.Lists before DlcContract.signed? contracts
  | before, .getConfirmedContracts, answer, after =>
      after = before ∧ ∀ contracts, answer = .ok contracts →
        ContractStore.Lists before DlcContract.confirmed? contracts
  | before, .getPreclosedContracts, answer, after =>
      after = before ∧ ∀ contracts, answer = .ok contracts →
        ContractStore.Lists before DlcContract.preClosed? contracts
  | before, .acceptContract contract, answer, after =>
      after = before ∧ ∀ accepted message, answer = .ok (accepted, message) →
        accepted.offeredContract = contract ∧ Fresh before accepted.contractId
  | before, .verifyAcceptedAndSignContract contract _, answer, after =>
      after = before ∧ ∀ signed message, answer = .ok (signed, message) →
        signed.acceptedContract.offeredContract = contract ∧
          Fresh before signed.acceptedContract.contractId
  | before, .verifySignedContract contract _, answer, after =>
      after = before ∧ ∀ signed transaction, answer = .ok (signed, transaction) →
        signed.acceptedContract = contract
  | before, _, _, after => after = before

/-- Only writes change the store. -/
theorem World.unchanged {repliesLost : Prop} {before after : ContractStore}
    {request : WalletRequest} {answer : request.Answer}
    (served : World repliesLost before request answer after)
    (read : request.isWrite = false) : after = before := by
  cases request with
  | createContract contract => cases read
  | updateContract contract => cases read
  | getContract id => exact served.1
  | getSignedContracts => exact served.1
  | getConfirmedContracts => exact served.1
  | getPreclosedContracts => exact served.1
  | acceptContract contract => exact served.1
  | verifyAcceptedAndSignContract contract message => exact served.1
  | verifySignedContract contract message => exact served.1
  | _ => exact served

/-! ## An executable world -/

/-- What others answer, and which requests to the store fail. -/
structure Others where
  answers : (request : WalletRequest) → request.Answer
  down : WalletRequest → Bool

instance (store : ContractStore) (id : ContractId) : Decidable (Fresh store id) :=
  inferInstanceAs (Decidable (∀ contract ∈ store.rows,
    contract.getId ≠ id ∧ contract.getTemporaryId ≠ id))

/-- The answer to a read of the store. -/
def read {α : Type} (down : Bool) (store : ContractStore) (value : α) :
    Except DlcError α × ContractStore :=
  if down then (.error (.storageError "unavailable"), store) else (.ok value, store)

/-- The answer to a write to the store. -/
def write (down : Bool) (store : ContractStore) (effect : Option ContractStore) :
    Except DlcError Unit × ContractStore :=
  match down, effect with
  | false, some after => (.ok (), after)
  | _, _ => (.error (.storageError "not written"), store)

/-- An answer that keeps what is promised of it, or else an error. -/
def keep {α : Type} (promise : α → Bool) :
    Except DlcError α → Except DlcError α
  | .ok reply =>
      if promise reply then .ok reply else .error (.invalidState "not promised")
  | .error error => .error error

theorem keep_eq_ok {α β : Type} {promise : α × β → Prop} [DecidablePred promise]
    {answer : Except DlcError (α × β)} (first : α) (second : β)
    (kept : keep (fun reply => decide (promise reply)) answer = .ok (first, second)) :
    promise (first, second) := by
  cases answer with
  | error error => cases kept
  | ok other =>
      simp only [keep] at kept
      split_ifs at kept with promised
      obtain rfl := Except.ok.inj kept
      exact of_decide_eq_true promised

/-- A world with a store that loses no replies.  An answer that the crate does not
give counts as an error. -/
def serve (others : Others) :
    Responder ContractStore WalletRequest WalletRequest.Answer :=
  fun store request =>
    let down := others.down request
    match request with
    | .getContract id => read down store (store.find? id)
    | .createContract contract => write down store (store.createContract contract)
    | .updateContract contract => write down store (store.updateContract contract)
    | .getSignedContracts =>
        read down store (store.rows.filterMap DlcContract.signed?)
    | .getConfirmedContracts =>
        read down store (store.rows.filterMap DlcContract.confirmed?)
    | .getPreclosedContracts =>
        read down store (store.rows.filterMap DlcContract.preClosed?)
    | .acceptContract contract =>
        (keep (fun reply => reply.1.offeredContract = contract ∧
          Fresh store reply.1.contractId) (others.answers (.acceptContract contract)),
          store)
    | .verifyAcceptedAndSignContract contract message =>
        (keep (fun reply => reply.1.acceptedContract.offeredContract = contract ∧
          Fresh store reply.1.acceptedContract.contractId)
          (others.answers (.verifyAcceptedAndSignContract contract message)), store)
    | .verifySignedContract contract message =>
        (keep (fun reply => reply.1.acceptedContract = contract)
          (others.answers (.verifySignedContract contract message)), store)
    | request => (others.answers request, store)

theorem writes_write (repliesLost : Prop) (down : Bool) (store : ContractStore)
    (effect : Option ContractStore) :
    Writes repliesLost store effect (write down store effect).1
      (write down store effect).2 := by
  unfold write Writes
  cases down with
  | true => exact .inr ⟨⟨_, rfl⟩, .inl rfl⟩
  | false =>
      cases effect with
      | none => exact .inr ⟨⟨_, rfl⟩, .inl rfl⟩
      | some after => exact .inl ⟨rfl, rfl⟩

theorem reads_read {α : Type} {holds : α → Prop} (down : Bool) (store : ContractStore)
    {value : α} (valueHolds : holds value) :
    (read down store value).2 = store ∧
      ∀ reply, (read down store value).1 = .ok reply → holds reply := by
  unfold read
  split_ifs
  · exact ⟨rfl, nofun⟩
  · refine ⟨rfl, ?_⟩
    rintro _ ⟨⟩
    exact valueHolds

/-- The executable world is a world, also where replies can be lost. -/
theorem world_serve (repliesLost : Prop) (others : Others) (store : ContractStore)
    (request : WalletRequest) :
    World repliesLost store request (serve others store request).1
      (serve others store request).2 := by
  unfold serve
  cases request with
  | createContract contract => exact writes_write ..
  | updateContract contract => exact writes_write ..
  | getContract id => exact reads_read _ _ rfl
  | getSignedContracts => exact reads_read _ _ (.refl _)
  | getConfirmedContracts => exact reads_read _ _ (.refl _)
  | getPreclosedContracts => exact reads_read _ _ (.refl _)
  | acceptContract contract =>
      exact ⟨rfl, keep_eq_ok⟩
  | verifyAcceptedAndSignContract contract message =>
      exact ⟨rfl, keep_eq_ok⟩
  | verifySignedContract contract message =>
      exact ⟨rfl, keep_eq_ok⟩
  | _ => rfl

/-! ## The manager -/

/-- A manager: the attestors it knows, the profit that the crate computes for a
closing transaction, and how errors, peers and contracts are printed. -/
structure Manager where
  oracles : Option (List PublicKey)
  computePnl : AcceptedContract → Transaction → Int
  display : DlcError → String
  debugPeer : Option PublicKey → String
  debugContract : DlcContract → String

/-- An operation of the manager. -/
abbrev ManagerM := ExceptT DlcError (Program WalletRequest WalletRequest.Answer)

/-- `….await?` -/
def ask (request : WalletRequest) : ManagerM request.Reply :=
  ExceptT.mk (perform request)

/-- The rule of a request: the program goes on with a reply and ends with an
error. -/
theorem always_ask_bind {env : Environment ContractStore WalletRequest WalletRequest.Answer}
    {rely : ContractStore → ContractStore → Prop}
    {good : List WalletStep → WalletStep → Prop} {α : Type}
    {post : List WalletStep → Except DlcError α → ContractStore → Prop}
    {past : List WalletStep} {store : ContractStore} {request : WalletRequest}
    {rest : request.Reply → ManagerM α}
    (answered : ∀ before, rely store before → ∀ answer after,
      env before request answer after →
        good past ⟨before, request, answer, after⟩ ∧
          match answer with
          | .ok reply =>
              Always env rely good post
                (past ++ [⟨before, request, .ok reply, after⟩]) after
                (rest reply).run
          | .error error =>
              post (past ++ [⟨before, request, .error error, after⟩])
                (.error error) after) :
    Always env rely good post past store (ask request >>= rest).run := by
  refine (always_run_bind _ _).mpr ((always_ask _ _).mpr ?_)
  intro before moved answer after served
  obtain ⟨goodStep, later⟩ := answered before moved answer after served
  refine ⟨goodStep, ?_⟩
  cases answer <;> exact later

end LinkManager

end DlcStack
