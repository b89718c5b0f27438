import DlcStack.Binary64
import DlcStack.EffectInterleaving
import Mathlib.Data.List.Nodup
import Mathlib.Data.List.Perm.Subperm

/-!
# Nonces of Stacks transactions

`StacksNonceService.getNonce` numbers the transactions of the blockchain
interface.  One static counter serves all wallets and networks; it is `undefined`
until the first call, and JavaScript takes zero for unset as well.  What comes
before the `await` and what comes after it are separate steps here, since other
calls may run in between.
-/

namespace DlcStack

namespace StacksNonceService

open Program

/-- A wallet on a network. -/
structure Account where
  network : String
  walletAddress : String
  deriving DecidableEq, Repr

/-- What `getNetworkInfo` returns for a configuration. -/
structure NetworkInfo where
  account : Account
  deployer : String
  deriving DecidableEq, Repr

/-- The options of a contract call that depend on the call. -/
structure TxOptions where
  contractAddress : String
  contractName : String
  functionName : String
  uuid : String
  btcTxId : String
  callbackContract : String
  account : Account
  nonce : Nat
  deriving DecidableEq, Repr

inductive TxBroadcastResult where
  | accepted (txid : String)
  | rejected (reason : String)
  deriving DecidableEq, Repr

inductive StacksRequest where
  | getCallbackContract (uuid contractName deployer network : String)
  | getNonceFromBlockchain (account : Account)
  -- `getNonce` from its `await` to its end
  | setNonce (account : Account) (blockChainNonce : Nat)
  | makeContractCall (options : TxOptions)
  | broadcastTransaction (transaction : TxOptions)
  -- a transaction of the wallet is mined
  | mine (account : Account)
  deriving DecidableEq

namespace StacksRequest

/-- What a request that does not throw returns. -/
abbrev Reply : StacksRequest → Type
  | getCallbackContract .. => String
  | getNonceFromBlockchain _ => Nat
  | setNonce _ _ => Nat
  | makeContractCall _ => TxOptions
  | broadcastTransaction _ => TxBroadcastResult
  | mine _ => Unit

abbrev Answer (request : StacksRequest) : Type :=
  Except String request.Reply

end StacksRequest

abbrev StacksM := ExceptT String (Program StacksRequest StacksRequest.Answer)

/-- `await`, with what is thrown as an error. -/
def ask (request : StacksRequest) : StacksM request.Reply :=
  ExceptT.mk (perform request)

/-- `getNonce` -/
def getNonce (account : Account) : StacksM Nat := do
  let blockChainNonce ← ask (.getNonceFromBlockchain account)
  ask (.setNonce account blockChainNonce)

def contractName : String :=
  "dlc-manager-v1-1"

/-- What `setStatusFunded` and `postCloseDLC` do with a function of the contract. -/
def callContract (functionName : String) (info : NetworkInfo) (uuid btcTxId : String) :
    StacksM TxBroadcastResult := do
  let callbackContract ← ask (.getCallbackContract uuid contractName info.deployer
    info.account.network)
  let nonce ← getNonce info.account
  let transaction ← ask (.makeContractCall ⟨info.deployer, contractName, functionName,
    uuid, btcTxId, callbackContract, info.account, nonce⟩)
  ask (.broadcastTransaction transaction)

/-- `setStatusFunded` -/
def setStatusFunded (info : NetworkInfo) (uuid btcTxId : String) :
    StacksM TxBroadcastResult :=
  callContract "set-status-funded" info uuid btcTxId

/-- `postCloseDLC` -/
def postCloseDLC (info : NetworkInfo) (uuid btcTxId : String) :
    StacksM TxBroadcastResult :=
  callContract "post-close" info uuid btcTxId

/-- What goes on at the same time: contract calls, and the chains. -/
inductive Operation where
  | setStatusFunded (info : NetworkInfo) (uuid btcTxId : String)
  | postCloseDLC (info : NetworkInfo) (uuid btcTxId : String)
  | mine (account : Account)

/-- The program of an operation. -/
def Operation.run : Operation → StacksM (Option TxBroadcastResult)
  | setStatusFunded info uuid btcTxId =>
      some <$> StacksNonceService.setStatusFunded info uuid btcTxId
  | postCloseDLC info uuid btcTxId =>
      some <$> StacksNonceService.postCloseDLC info uuid btcTxId
  | mine account => do
      let _ ← ask (.mine account)
      return none

/-! ## The counter and the chains -/

/-- `!this.nonce` -/
def isUnset (nonce : Option Nat) : Bool :=
  nonce.getD 0 = 0

/-- `nonce++`, which stands still from 2^53 on. -/
def increment (nonce : Nat) : Nat :=
  Binary64.ofNat (nonce + 1)

/-- `this.nonce` after the rest of `getNonce`, which returns it. -/
def nextNonce (nonce : Option Nat) (blockChainNonce : Nat) : Nat :=
  if isUnset nonce || nonce.getD 0 < blockChainNonce then blockChainNonce
  else increment (nonce.getD 0)

@[simp]
theorem nextNonce_none (blockChainNonce : Nat) :
    nextNonce none blockChainNonce = blockChainNonce :=
  rfl

/-- A counter is synced with the chain, or counted up. -/
theorem nextNonce_some (current blockChainNonce : Nat) :
    nextNonce (some current) blockChainNonce = blockChainNonce ∧
        (current = 0 ∨ current < blockChainNonce) ∨
      nextNonce (some current) blockChainNonce = increment current ∧
        0 < current ∧ blockChainNonce ≤ current := by
  simp only [nextNonce, isUnset, Option.getD_some, Bool.or_eq_true, decide_eq_true_eq]
  split_ifs with synced
  · exact .inl ⟨rfl, synced⟩
  · exact .inr ⟨rfl, by omega⟩

theorem increment_of_lt {nonce : Nat} (small : nonce < 2 ^ 53) :
    increment nonce = nonce + 1 :=
  Binary64.ofNat_of_le small

/-- The static counter, the nonce that each chain has for each wallet, and the
transactions that were accepted. -/
structure Chains where
  nonce : Option Nat
  reported : Account → Nat
  accepted : List (Account × Nat)

/-- The counter is `undefined` and no wallet has made a transaction. -/
def Chains.initial : Chains :=
  ⟨none, fun _ => 0, []⟩

/-- The accepted transactions of a wallet that the chain has not mined. -/
def Chains.unmined (chains : Chains) (account : Account) : List (Account × Nat) :=
  chains.accepted.filter fun transaction =>
    transaction.1 = account ∧ chains.reported account ≤ transaction.2

/-- Consecutive nonces of accepted transactions, from the reported one on, are counted
as unmined. -/
theorem Chains.le_unmined {chains : Chains} {account : Account} {last : Nat}
    (accepted : ∀ pending < last, chains.reported account ≤ pending →
      (account, pending) ∈ chains.accepted) :
    last ≤ chains.reported account + (chains.unmined account).length := by
  let pending := (List.range' (chains.reported account)
    (last - chains.reported account)).map fun nonce => (account, nonce)
  have distinct : pending.Nodup :=
    List.Nodup.map (fun _ _ same => (Prod.mk.inj same).2) (List.nodup_range' 1 (by omega))
  have counted : pending ⊆ chains.unmined account := by
    intro transaction member
    obtain ⟨nonce, inRange, rfl⟩ := List.mem_map.mp member
    have inRange := List.mem_range'_1.mp inRange
    have isAccepted := accepted nonce (by omega) inRange.1
    simp [unmined, isAccepted, inRange.1]
  have lengths := (distinct.subperm counted).length_le
  simp only [pending, List.length_map, List.length_range'] at lengths
  omega

abbrev StacksStep := Step Chains StacksRequest StacksRequest.Answer

/-- Which answers the chains may give, and what becomes of the counter.  The nonce that
a chain reports is made a number of JavaScript.  A broadcast that throws may have been
accepted. -/
def World : Environment Chains StacksRequest StacksRequest.Answer
  | before, .getNonceFromBlockchain account, answer, after =>
      after = before ∧
        ∀ nonce, answer = .ok nonce → nonce = Binary64.ofNat (before.reported account)
  | before, .setNonce _ blockChainNonce, answer, after =>
      answer = .ok (nextNonce before.nonce blockChainNonce) ∧
        after = { before with nonce := some (nextNonce before.nonce blockChainNonce) }
  | before, .makeContractCall options, answer, after =>
      after = before ∧ ∀ transaction, answer = .ok transaction → transaction = options
  | before, .broadcastTransaction transaction, answer, after =>
      (after = before ∧ ∀ txid, answer ≠ .ok (.accepted txid)) ∨
        after = { before with
          accepted := (transaction.account, transaction.nonce) :: before.accepted } ∧
          ∀ reason, answer ≠ .ok (.rejected reason)
  | before, .mine account, _, after =>
      after = { before with
        reported := Function.update before.reported account (before.reported account + 1) }
  | before, .getCallbackContract .., _, after => after = before

/-! ## How far a call has come -/

/-- What a call knows and has: the nonce that the chain reported, the nonce that it
was given, whether its transaction was accepted. -/
inductive Progress where
  | idle
  | told (account : Account) (blockChainNonce : Nat)
  | holds (account : Account) (nonce : Nat)
  | spent (account : Account) (nonce : Nat)
  | dropped
  deriving DecidableEq, Repr

namespace Progress

def after (progress : Progress) : StacksStep → Progress
  | ⟨_, .getNonceFromBlockchain account, .ok blockChainNonce, _⟩ =>
      told account blockChainNonce
  | ⟨_, .setNonce account _, .ok nonce, _⟩ => holds account nonce
  | ⟨_, .makeContractCall _, .error _, _⟩ => dropped
  | ⟨before, .broadcastTransaction transaction, _, after⟩ =>
      if after.accepted = before.accepted then dropped
      else spent transaction.account transaction.nonce
  | _ => progress

/-- The progress that the steps of a call make. -/
def of (steps : List StacksStep) : Progress :=
  steps.foldl after idle

@[simp]
theorem of_nil : of [] = idle :=
  rfl

@[simp]
theorem of_snoc (steps : List StacksStep) (step : StacksStep) :
    of (steps ++ [step]) = (of steps).after step := by
  simp [of]

/-- The nonce was given to the call, and its transaction is under way or accepted. -/
def InUse (progress : Progress) (account : Account) (nonce : Nat) : Prop :=
  progress = holds account nonce ∨ progress = spent account nonce

instance (progress : Progress) (account : Account) (nonce : Nat) :
    Decidable (progress.InUse account nonce) :=
  inferInstanceAs (Decidable (_ ∨ _))

end Progress

/-- A nonce that was given to a call, and the one that the chain had reported to it. -/
structure GivenNonce where
  account : Account
  blockChainNonce : Nat
  nonce : Nat
  deriving DecidableEq, Repr

/-- The nonces that the steps of a call gave to it. -/
def givenNonces (steps : List StacksStep) : List GivenNonce :=
  steps.filterMap fun
    | ⟨_, .setNonce account blockChainNonce, .ok nonce, _⟩ =>
        some ⟨account, blockChainNonce, nonce⟩
    | _ => none

theorem givenNonces_append (front back : List StacksStep) :
    givenNonces (front ++ back) = givenNonces front ++ givenNonces back :=
  List.filterMap_append

/-- The steps of a call come in the order of its program. -/
def Orderly (past : List StacksStep) (step : StacksStep) : Prop :=
  match step.request with
  | .setNonce account blockChainNonce =>
      Progress.of past = .told account blockChainNonce
  | .makeContractCall options => Progress.of past = .holds options.account options.nonce
  | .broadcastTransaction transaction =>
      Progress.of past = .holds transaction.account transaction.nonce
  | _ => Progress.of past = .idle

theorem locally_callContract (functionName : String) (info : NetworkInfo)
    (uuid btcTxId : String) :
    (Thread.start (some <$> callContract functionName info uuid btcTxId).run).Locally World
      Orderly (fun _ _ => True) := by
  intro state before _ callback after _
  refine ⟨rfl, ?_⟩
  cases callback with
  | error thrown => trivial
  | ok callback =>
  intro before _ reported after _
  refine ⟨rfl, ?_⟩
  cases reported with
  | error thrown => trivial
  | ok blockChainNonce =>
  intro before _ nonce after _
  refine ⟨rfl, ?_⟩
  cases nonce with
  | error thrown => trivial
  | ok nonce =>
  intro before _ transaction after served
  refine ⟨rfl, ?_⟩
  cases transaction with
  | error thrown => trivial
  | ok transaction =>
  obtain rfl := served.2 transaction rfl
  intro before _ result after _
  refine ⟨rfl, ?_⟩
  cases result <;> trivial

theorem locally_run (operation : Operation) :
    (Thread.start operation.run.run).Locally World Orderly (fun _ _ => True) := by
  cases operation with
  | setStatusFunded info uuid btcTxId => exact locally_callContract _ info uuid btcTxId
  | postCloseDLC info uuid btcTxId => exact locally_callContract _ info uuid btcTxId
  | mine account =>
      intro state before _ answer after _
      refine ⟨rfl, ?_⟩
      cases answer <;> trivial

/-! ## Distinct nonces without gaps -/

/-- A nonce that is returned is at most what the chain reports and the unmined
transactions of the wallet account for. -/
def WithinChain : StacksStep → Prop
  | ⟨before, .setNonce account _, .ok nonce, _⟩ =>
      nonce ≤ before.reported account + (before.unmined account).length
  | _ => True

instance : DecidablePred WithinChain
  | ⟨_, .setNonce _ _, .ok _, _⟩ => inferInstanceAs (Decidable (_ ≤ _))
  | ⟨_, .setNonce _ _, .error _, _⟩ => .isTrue trivial
  | ⟨_, .getCallbackContract .., _, _⟩ => .isTrue trivial
  | ⟨_, .getNonceFromBlockchain _, _, _⟩ => .isTrue trivial
  | ⟨_, .makeContractCall _, _, _⟩ => .isTrue trivial
  | ⟨_, .broadcastTransaction _, _, _⟩ => .isTrue trivial
  | ⟨_, .mine _, _, _⟩ => .isTrue trivial

section Interleaved

variable {ι : Type} [DecidableEq ι]

abbrev StacksPool (ι : Type) :=
  Pool ι Chains StacksRequest StacksRequest.Answer (Except String (Option TxBroadcastResult))

/-- A call of the account took this nonce from its chain, and all calls that were given
one from there on are of the account and had their transactions accepted. -/
structure Unbroken (pool : StacksPool ι) (account : Account) (first : Nat) : Prop where
  synced : ∃ call, ⟨account, first, first⟩ ∈ givenNonces (pool call).past
  accepted : ∀ call, ∀ given ∈ givenNonces (pool call).past, first ≤ given.nonce →
    given.account = account ∧ Progress.of (pool call).past = .spent account given.nonce

/-- The counter is taken for unset at zero only when no transaction of the wallet with
this nonce is under way or accepted.  It is counted up only after calls of the wallet
whose transactions were accepted, and where JavaScript counts exactly. -/
def Continues (pool : StacksPool ι) (_ : ι) (step : StacksStep) : Prop :=
  match step with
  | ⟨before, .setNonce account blockChainNonce, _, _⟩ =>
      before.reported account ≤ 2 ^ 53 ∧
        (before.nonce = some 0 → blockChainNonce = 0 →
          ∀ call, ∀ given ∈ givenNonces (pool call).past, given.account = account →
            Progress.of (pool call).past = .dropped) ∧
        (isUnset before.nonce = false → blockChainNonce ≤ before.nonce.getD 0 →
          before.nonce.getD 0 < 2 ^ 53 ∧ ∃ first, Unbroken pool account first)
  | _ => True

/-- A number that the chain of the account has reported. -/
def Reported (chains : Chains) (account : Account) (number : Nat) : Prop :=
  ∃ nonce ≤ chains.reported account, number = Binary64.ofNat nonce

/-- What holds of the counter and the nonces that were given to calls. -/
structure Counted (pool : StacksPool ι) (chains : Chains) : Prop where
  told : ∀ index account blockChainNonce,
    Progress.of (pool index).past = .told account blockChainNonce →
      Reported chains account blockChainNonce
  reported : ∀ index, ∀ given ∈ givenNonces (pool index).past,
    Reported chains given.account given.blockChainNonce
  bounded : ∀ index, ∀ given ∈ givenNonces (pool index).past,
    ∃ current, chains.nonce = some current ∧ given.nonce ≤ current
  -- a number up to the counter was given away, or one above it was taken from a chain
  passed : ∀ current, chains.nonce = some current → ∀ nonce ≤ current,
    ∃ index, ∃ given ∈ givenNonces (pool index).past, nonce ≤ given.nonce ∧
      (given.nonce = nonce ∨ given.blockChainNonce = given.nonce)

/-- What holds of the calls, the counter and the chains. -/
structure Numbered (pool : StacksPool ι) (chains : Chains) : Prop
    extends Counted pool chains where
  given : ∀ index account nonce, (Progress.of (pool index).past).InUse account nonce →
    ∃ given ∈ givenNonces (pool index).past, given.account = account ∧ given.nonce = nonce
  separate : ∀ index other account nonce, index ≠ other →
    (Progress.of (pool index).past).InUse account nonce →
      ¬ (Progress.of (pool other).past).InUse account nonce
  owned : ∀ account nonce, (account, nonce) ∈ chains.accepted →
    ∃ index, Progress.of (pool index).past = .spent account nonce
  kept : ∀ index account nonce, Progress.of (pool index).past = .spent account nonce →
    (account, nonce) ∈ chains.accepted
  distinct : chains.accepted.Nodup
  within : ∀ index, ∀ step ∈ (pool index).past, WithinChain step

omit [DecidableEq ι] in
theorem numbered_initial (programs : ι → Program StacksRequest StacksRequest.Answer
    (Except String (Option TxBroadcastResult))) :
    Numbered (fun index => Thread.start (programs index)) .initial := by
  refine ⟨?_, ?_, ?_, ?_, ?_, ?_, ?_⟩
  · constructor <;> simp [Thread.start, givenNonces, Chains.initial]
  all_goals simp [Thread.start, Progress.InUse, Chains.initial]

theorem Reported.grows {before after : Chains} {account : Account} {number : Nat}
    (reported : Reported before account number)
    (grows : ∀ account, before.reported account ≤ after.reported account) :
    Reported after account number := by
  obtain ⟨nonce, bound, same⟩ := reported
  exact ⟨nonce, Nat.le_trans bound (grows account), same⟩

/-- Numbers up to 2^53 are reported as they are. -/
theorem Reported.le {chains : Chains} {account : Account} {number : Nat}
    (reported : Reported chains account number)
    (small : chains.reported account ≤ 2 ^ 53) : number ≤ chains.reported account := by
  obtain ⟨nonce, bound, rfl⟩ := reported
  rwa [Binary64.ofNat_of_le (Nat.le_trans bound small)]

section Advance

variable {pool : StacksPool ι} {index : ι} {before after : Chains}
  {request : StacksRequest} {answer : request.Answer}
  {program : Program StacksRequest StacksRequest.Answer
    (Except String (Option TxBroadcastResult))}

theorem progress_advance (other : ι) :
    Progress.of ((pool.advance index ⟨before, request, answer, after⟩ program) other).past =
      if other = index then
        (Progress.of (pool index).past).after ⟨before, request, answer, after⟩
      else Progress.of (pool other).past := by
  by_cases same : other = index
  · subst same
    simp
  · rw [if_neg same, Pool.advance_other _ same]

theorem givenNonces_advance (step : StacksStep) (other : ι) :
    givenNonces ((pool.advance index step program) other).past =
      givenNonces (pool other).past ++ if other = index then givenNonces [step] else [] := by
  by_cases same : other = index
  · subst same
    rw [Pool.advance_same, givenNonces_append, if_pos rfl]
  · rw [Pool.advance_other _ same, if_neg same, List.append_nil]

theorem within_advance (numbered : Numbered pool before)
    (within : WithinChain ⟨before, request, answer, after⟩) (other : ι) :
    ∀ step ∈ ((pool.advance index ⟨before, request, answer, after⟩ program) other).past,
      WithinChain step := by
  by_cases same : other = index
  · subst same
    intro step member
    rw [Pool.advance_same] at member
    rcases List.mem_append.mp member with member | member
    · exact numbered.within other step member
    · obtain rfl := List.mem_singleton.mp member
      exact within
  · rw [Pool.advance_other _ same]
    exact numbered.within other

/-- A step that gives no nonce away. -/
theorem Counted.keep (counted : Counted pool before)
    (sameNonce : after.nonce = before.nonce)
    (grows : ∀ account, before.reported account ≤ after.reported account)
    (none : givenNonces [⟨before, request, answer, after⟩] = [])
    (told : ∀ account blockChainNonce,
      (Progress.of (pool index).past).after ⟨before, request, answer, after⟩ =
        .told account blockChainNonce → Reported after account blockChainNonce) :
    Counted (pool.advance index ⟨before, request, answer, after⟩ program) after := by
  have same (other : ι) : givenNonces
      ((pool.advance index ⟨before, request, answer, after⟩ program) other).past =
        givenNonces (pool other).past := by
    rw [givenNonces_advance, none, ite_self, List.append_nil]
  refine ⟨?_, ?_, ?_, ?_⟩
  · intro other account blockChainNonce isTold
    rw [progress_advance] at isTold
    split_ifs at isTold with same
    · exact told account blockChainNonce isTold
    · exact (counted.told other account blockChainNonce isTold).grows grows
  · intro other given member
    rw [same] at member
    exact (counted.reported other given member).grows grows
  · intro other given member
    rw [same] at member
    rw [sameNonce]
    exact counted.bounded other given member
  · intro current isCurrent nonce bound
    rw [sameNonce] at isCurrent
    obtain ⟨other, given, member, passed⟩ := counted.passed current isCurrent nonce bound
    exact ⟨other, given, by rwa [same], passed⟩

/-- A step that gives no nonce away and has no transaction accepted. -/
theorem Numbered.keep (numbered : Numbered pool before)
    (sameNonce : after.nonce = before.nonce)
    (sameAccepted : after.accepted = before.accepted)
    (grows : ∀ account, before.reported account ≤ after.reported account)
    (within : WithinChain ⟨before, request, answer, after⟩)
    (none : givenNonces [⟨before, request, answer, after⟩] = [])
    (told : ∀ account blockChainNonce,
      (Progress.of (pool index).past).after ⟨before, request, answer, after⟩ =
        .told account blockChainNonce → Reported after account blockChainNonce)
    (inUse : ∀ account nonce,
      ((Progress.of (pool index).past).after ⟨before, request, answer, after⟩).InUse
        account nonce → (Progress.of (pool index).past).InUse account nonce)
    (spent : ∀ account nonce,
      (Progress.of (pool index).past).after ⟨before, request, answer, after⟩ =
        .spent account nonce ↔ Progress.of (pool index).past = .spent account nonce) :
    Numbered (pool.advance index ⟨before, request, answer, after⟩ program) after := by
  have earlier (other : ι) (account : Account) (nonce : Nat)
      (claims : (Progress.of ((pool.advance index ⟨before, request, answer, after⟩ program)
        other).past).InUse account nonce) :
      (Progress.of (pool other).past).InUse account nonce := by
    rw [progress_advance] at claims
    split_ifs at claims with same
    · subst same
      exact inUse account nonce claims
    · exact claims
  have isSpent (other : ι) (account : Account) (nonce : Nat) :
      Progress.of ((pool.advance index ⟨before, request, answer, after⟩ program)
        other).past = .spent account nonce ↔
          Progress.of (pool other).past = .spent account nonce := by
    rw [progress_advance]
    split_ifs with same
    · subst same
      exact spent account nonce
    · rfl
  refine ⟨numbered.toCounted.keep sameNonce grows none told, ?_, ?_, ?_, ?_, ?_,
    within_advance numbered within⟩
  · intro other account nonce claims
    rw [givenNonces_advance, none, ite_self, List.append_nil]
    exact numbered.given other account nonce (earlier other account nonce claims)
  · intro first second account nonce different firstClaims secondClaims
    exact numbered.separate first second account nonce different
      (earlier first account nonce firstClaims) (earlier second account nonce secondClaims)
  · intro account nonce member
    rw [sameAccepted] at member
    obtain ⟨owner, isOwner⟩ := numbered.owned account nonce member
    exact ⟨owner, (isSpent owner account nonce).mpr isOwner⟩
  · intro other account nonce spends
    rw [sameAccepted]
    exact numbered.kept other account nonce ((isSpent other account nonce).mp spends)
  · rw [sameAccepted]
    exact numbered.distinct

/-- The step that gives a call its nonce. -/
abbrev givesNonce (before : Chains) (account : Account) (blockChainNonce : Nat) :
    StacksStep :=
  ⟨before, .setNonce account blockChainNonce,
    .ok (nextNonce before.nonce blockChainNonce),
    { before with nonce := some (nextNonce before.nonce blockChainNonce) }⟩

/-- What the step that gives a call its nonce does to the counter. -/
inductive Moves (pool : StacksPool ι) (before : Chains) (account : Account)
    (blockChainNonce : Nat) : Prop
  | first (unset : before.nonce = none)
      (next : nextNonce before.nonce blockChainNonce = blockChainNonce)
  | restarts (zero : before.nonce = some 0) (reported : blockChainNonce = 0)
      (next : nextNonce before.nonce blockChainNonce = 0)
      (dropped : ∀ call, ∀ given ∈ givenNonces (pool call).past, given.account = account →
        Progress.of (pool call).past = .dropped)
  | synced {current : Nat} (isCurrent : before.nonce = some current)
      (ahead : current < blockChainNonce)
      (next : nextNonce before.nonce blockChainNonce = blockChainNonce)
  | counted {current start : Nat} (isCurrent : before.nonce = some current)
      (behind : blockChainNonce ≤ current) (unbroken : Unbroken pool account start)
      (next : nextNonce before.nonce blockChainNonce = current + 1)

omit [DecidableEq ι] in
theorem moves_of_continues {account : Account} {blockChainNonce : Nat}
    (continues : Continues pool index (givesNonce before account blockChainNonce)) :
    Moves pool before account blockChainNonce := by
  obtain ⟨-, dropped, counts⟩ := continues
  cases isCurrent : before.nonce with
  | none => exact .first isCurrent (by rw [isCurrent, nextNonce_none])
  | some current =>
      rcases nextNonce_some current blockChainNonce with ⟨next, synced⟩ | ⟨next, used, behind⟩
      · rw [← isCurrent] at next
        by_cases ahead : current < blockChainNonce
        · exact .synced isCurrent ahead next
        · obtain rfl : current = 0 := by omega
          obtain rfl : blockChainNonce = 0 := by omega
          exact .restarts isCurrent rfl next (dropped isCurrent rfl)
      · rw [isCurrent] at counts
        obtain ⟨small, start, unbroken⟩ := counts (by simp [isUnset]; omega) behind
        rw [← isCurrent, increment_of_lt (show current < 2 ^ 53 from small)] at next
        exact .counted isCurrent behind unbroken next

omit [DecidableEq ι] in
/-- The counter never falls behind a nonce that was given away. -/
theorem Counted.le_nextNonce (counted : Counted pool before) {account : Account}
    {blockChainNonce : Nat} (moves : Moves pool before account blockChainNonce) {call : ι}
    {given : GivenNonce} (member : given ∈ givenNonces (pool call).past) :
    given.nonce ≤ nextNonce before.nonce blockChainNonce := by
  obtain ⟨current, isCurrent, bound⟩ := counted.bounded call given member
  cases moves with
  | first unset next =>
      rw [unset] at isCurrent
      cases isCurrent
  | restarts zero reported next dropped =>
      rw [zero] at isCurrent
      obtain rfl := Option.some.inj isCurrent
      omega
  | synced same ahead next =>
      rw [same] at isCurrent
      obtain rfl := Option.some.inj isCurrent
      omega
  | counted same behind unbroken next =>
      rw [same] at isCurrent
      obtain rfl := Option.some.inj isCurrent
      omega

/-- The step that gives a call its nonce keeps what holds of the counter. -/
theorem Counted.setNonce (counted : Counted pool before) {account : Account}
    {blockChainNonce : Nat}
    (orderly : Progress.of (pool index).past = .told account blockChainNonce)
    (moves : Moves pool before account blockChainNonce) :
    Counted (pool.advance index (givesNonce before account blockChainNonce) program)
      { before with nonce := some (nextNonce before.nonce blockChainNonce) } := by
  have gives : givenNonces [givesNonce before account blockChainNonce] =
      [⟨account, blockChainNonce, nextNonce before.nonce blockChainNonce⟩] :=
    rfl
  have added (other : ι) {given : GivenNonce} (member : given ∈ givenNonces ((pool.advance
      index (givesNonce before account blockChainNonce) program) other).past) :
      given ∈ givenNonces (pool other).past ∨
        given = ⟨account, blockChainNonce, nextNonce before.nonce blockChainNonce⟩ := by
    rw [givenNonces_advance, gives] at member
    refine (List.mem_append.mp member).imp_right fun member => ?_
    split_ifs at member
    · exact List.mem_singleton.mp member
    · cases member
  refine ⟨?_, ?_, ?_, ?_⟩
  · intro other wallet number isTold
    rw [progress_advance] at isTold
    split_ifs at isTold
    · cases isTold
    · exact counted.told other wallet number isTold
  · intro other given member
    rcases added other member with member | rfl
    · exact counted.reported other given member
    · exact counted.told index account blockChainNonce orderly
  · intro other given member
    rcases added other member with member | rfl
    · exact ⟨_, rfl, counted.le_nextNonce moves member⟩
    · exact ⟨_, rfl, Nat.le_refl _⟩
  · rintro _ ⟨⟩ nonce bound
    have own : ⟨account, blockChainNonce, nextNonce before.nonce blockChainNonce⟩ ∈
        givenNonces ((pool.advance index (givesNonce before account blockChainNonce)
          program) index).past := by
      rw [givenNonces_advance, gives, if_pos rfl]
      exact List.mem_append_right _ (List.mem_singleton_self _)
    by_cases last : nonce = nextNonce before.nonce blockChainNonce
    · exact ⟨index, _, own, bound, .inl last.symm⟩
    · cases moves with
      | first unset next => exact ⟨index, _, own, bound, .inr next.symm⟩
      | restarts zero reported next dropped =>
          exact ⟨index, _, own, bound, .inr (reported.trans next.symm)⟩
      | synced isCurrent ahead next => exact ⟨index, _, own, bound, .inr next.symm⟩
      | counted isCurrent behind unbroken next =>
          obtain ⟨other, given, member, passed⟩ :=
            counted.passed _ isCurrent nonce (by omega)
          refine ⟨other, given, ?_, passed⟩
          rw [givenNonces_advance]
          exact List.mem_append_left _ member

omit [DecidableEq ι] in
/-- The nonce that a call gets is in use by no other. -/
theorem Numbered.not_inUse_nextNonce (numbered : Numbered pool before) {account : Account}
    {blockChainNonce : Nat} (moves : Moves pool before account blockChainNonce)
    (other : ι) :
    ¬ (Progress.of (pool other).past).InUse account
      (nextNonce before.nonce blockChainNonce) := by
  intro claims
  obtain ⟨given, member, isAccount, same⟩ := numbered.given other account _ claims
  obtain ⟨current, isCurrent, bound⟩ := numbered.bounded other given member
  cases moves with
  | first unset next =>
      rw [unset] at isCurrent
      cases isCurrent
  | restarts zero reported next dropped =>
      rw [dropped other given member isAccount] at claims
      rcases claims with same | same <;> cases same
  | synced isSynced ahead next =>
      rw [isSynced] at isCurrent
      obtain rfl := Option.some.inj isCurrent
      omega
  | counted isCounted behind unbroken next =>
      rw [isCounted] at isCurrent
      obtain rfl := Option.some.inj isCurrent
      omega

omit [DecidableEq ι] in
/-- After calls of the wallet that were accepted, all numbers from the reported one up to
the counter are those of accepted transactions. -/
theorem Numbered.accepted_of_unbroken (numbered : Numbered pool before)
    {account : Account} {current start : Nat} (isCurrent : before.nonce = some current)
    (unbroken : Unbroken pool account start)
    (small : before.reported account ≤ 2 ^ 53) :
    ∀ nonce < current + 1, before.reported account ≤ nonce →
      (account, nonce) ∈ before.accepted := by
  intro nonce bound unmined
  obtain ⟨call, synced⟩ := unbroken.synced
  have started : start ≤ before.reported account :=
    (numbered.reported call _ synced).le small
  obtain ⟨index, given, member, above, passed⟩ :=
    numbered.passed current isCurrent nonce (by omega)
  obtain ⟨isAccount, isSpent⟩ := unbroken.accepted index given member (by omega)
  have same : given.nonce = nonce := by
    refine passed.elim id fun synced => ?_
    -- the chain had reported a number that it has not passed yet
    have reported := isAccount ▸ numbered.reported index given member
    have bound := reported.le small
    omega
  rw [← same]
  exact numbered.kept index account given.nonce isSpent

omit [DecidableEq ι] in
/-- The nonce that a call gets is within the chain. -/
theorem Numbered.withinChain_givesNonce (numbered : Numbered pool before)
    {account : Account} {blockChainNonce : Nat}
    (reported : Reported before account blockChainNonce)
    (small : before.reported account ≤ 2 ^ 53)
    (moves : Moves pool before account blockChainNonce) :
    WithinChain (givesNonce before account blockChainNonce) := by
  have bound := reported.le small
  change nextNonce before.nonce blockChainNonce ≤ _
  cases moves with
  | first unset next => omega
  | restarts zero isZero next dropped => omega
  | synced isCurrent ahead next => omega
  | counted isCurrent behind unbroken next =>
      rw [next]
      exact Chains.le_unmined (numbered.accepted_of_unbroken isCurrent unbroken small)

/-- A call that gets its nonce keeps the nonces in order. -/
theorem Numbered.setNonce (numbered : Numbered pool before) {account : Account}
    {blockChainNonce : Nat}
    (orderly : Progress.of (pool index).past = .told account blockChainNonce)
    (continues : Continues pool index (givesNonce before account blockChainNonce)) :
    Numbered (pool.advance index (givesNonce before account blockChainNonce) program)
      { before with nonce := some (nextNonce before.nonce blockChainNonce) } := by
  have moves := moves_of_continues continues
  have unclaimed := numbered.not_inUse_nextNonce moves
  have within := numbered.withinChain_givesNonce
    (numbered.told index account blockChainNonce orderly) continues.1 moves
  have holds : (Progress.of (pool index).past).after
      (givesNonce before account blockChainNonce) =
        .holds account (nextNonce before.nonce blockChainNonce) :=
    rfl
  refine ⟨numbered.toCounted.setNonce orderly moves, ?_, ?_, ?_, ?_, numbered.distinct,
    within_advance numbered within⟩
  · intro other wallet nonce claims
    rw [progress_advance, holds] at claims
    rw [givenNonces_advance]
    split_ifs at claims ⊢ with same
    · refine ⟨⟨account, blockChainNonce, _⟩,
        List.mem_append_right _ (List.mem_singleton_self _), ?_⟩
      rcases claims with same | same <;> cases same
      exact ⟨rfl, rfl⟩
    · rw [List.append_nil]
      exact numbered.given other wallet nonce claims
  · intro first second wallet nonce different firstClaims secondClaims
    rw [progress_advance, holds] at firstClaims secondClaims
    split_ifs at firstClaims secondClaims with isFirst isSecond isSecond
    · exact different (isFirst.trans isSecond.symm)
    · rcases firstClaims with same | same <;> cases same
      exact unclaimed second secondClaims
    · rcases secondClaims with same | same <;> cases same
      exact unclaimed first firstClaims
    · exact numbered.separate first second wallet nonce different firstClaims secondClaims
  · intro wallet nonce member
    obtain ⟨owner, isSpent⟩ := numbered.owned wallet nonce member
    refine ⟨owner, ?_⟩
    rw [progress_advance, if_neg]
    · exact isSpent
    · rintro rfl
      rw [orderly] at isSpent
      cases isSpent
  · intro other wallet nonce isSpent
    rw [progress_advance, holds] at isSpent
    split_ifs at isSpent
    exact numbered.kept other wallet nonce isSpent

/-- A transaction that is accepted has a nonce that no accepted one has. -/
theorem Numbered.accept (numbered : Numbered pool before) {transaction : TxOptions}
    {answer : Except String TxBroadcastResult}
    (orderly : Progress.of (pool index).past =
      .holds transaction.account transaction.nonce) :
    Numbered (pool.advance index ⟨before, .broadcastTransaction transaction, answer,
      { before with
        accepted := (transaction.account, transaction.nonce) :: before.accepted }⟩ program)
      { before with
        accepted := (transaction.account, transaction.nonce) :: before.accepted } := by
  have spends : (Progress.of (pool index).past).after ⟨before,
      .broadcastTransaction transaction, answer,
      { before with
        accepted := (transaction.account, transaction.nonce) :: before.accepted }⟩ =
        .spent transaction.account transaction.nonce := by
    simp [Progress.after]
  have earlier (other : ι) (account : Account) (nonce : Nat)
      (claims : (Progress.of ((pool.advance index ⟨before, .broadcastTransaction transaction,
        answer, { before with
          accepted := (transaction.account, transaction.nonce) :: before.accepted }⟩ program)
        other).past).InUse account nonce) :
      (Progress.of (pool other).past).InUse account nonce := by
    rw [progress_advance, spends] at claims
    split_ifs at claims with same
    · subst same
      rcases claims with same | same <;> cases same
      exact .inl orderly
    · exact claims
  refine ⟨numbered.toCounted.keep rfl (fun _ => Nat.le_refl _) rfl ?_, ?_, ?_, ?_, ?_, ?_,
    within_advance numbered trivial⟩
  · rw [spends]
    rintro _ _ ⟨⟩
  · intro other account nonce claims
    rw [givenNonces_advance]
    obtain ⟨given, member, same⟩ :=
      numbered.given other account nonce (earlier other account nonce claims)
    exact ⟨given, List.mem_append_left _ member, same⟩
  · intro first second account nonce different firstClaims secondClaims
    exact numbered.separate first second account nonce different
      (earlier first account nonce firstClaims) (earlier second account nonce secondClaims)
  · intro account nonce member
    rcases List.mem_cons.mp member with same | member
    · cases same
      exact ⟨index, by rw [progress_advance, if_pos rfl, spends]⟩
    · obtain ⟨owner, isSpent⟩ := numbered.owned account nonce member
      refine ⟨owner, ?_⟩
      rw [progress_advance, if_neg]
      · exact isSpent
      · rintro rfl
        rw [orderly] at isSpent
        cases isSpent
  · intro other account nonce isSpent
    rw [progress_advance, spends] at isSpent
    split_ifs at isSpent
    · cases isSpent
      exact List.mem_cons_self
    · exact List.mem_cons_of_mem _ (numbered.kept other account nonce isSpent)
  · refine List.nodup_cons.mpr ⟨fun member => ?_, numbered.distinct⟩
    obtain ⟨owner, isSpent⟩ := numbered.owned _ _ member
    by_cases same : owner = index
    · subst same
      rw [orderly] at isSpent
      cases isSpent
    · exact numbered.separate owner index _ _ same (.inr isSpent) (.inl orderly)

/-- A step that changes nothing. -/
theorem Numbered.still (numbered : Numbered pool before)
    (within : WithinChain ⟨before, request, answer, before⟩)
    (none : givenNonces [⟨before, request, answer, before⟩] = [])
    (same : (Progress.of (pool index).past).after ⟨before, request, answer, before⟩ =
      Progress.of (pool index).past) :
    Numbered (pool.advance index ⟨before, request, answer, before⟩ program) before := by
  refine numbered.keep rfl rfl (fun _ => Nat.le_refl _) within none ?_ ?_ ?_
  · rw [same]
    exact numbered.told index
  · rw [same]
    exact fun _ _ => id
  · rw [same]
    exact fun _ _ => .rfl

/-- A step by which a call gives up its nonce. -/
theorem Numbered.drop (numbered : Numbered pool before) {account : Account} {nonce : Nat}
    (within : WithinChain ⟨before, request, answer, before⟩)
    (none : givenNonces [⟨before, request, answer, before⟩] = [])
    (held : Progress.of (pool index).past = .holds account nonce)
    (drops : (Progress.of (pool index).past).after ⟨before, request, answer, before⟩ =
      .dropped) :
    Numbered (pool.advance index ⟨before, request, answer, before⟩ program) before := by
  refine numbered.keep rfl rfl (fun _ => Nat.le_refl _) within none ?_ ?_ ?_
  · rw [drops]
    rintro _ _ ⟨⟩
  · rw [drops]
    rintro _ _ (same | same) <;> cases same
  · rw [drops, held]
    simp

/-- Every step of a call or a chain keeps the nonces in order. -/
theorem Numbered.step (numbered : Numbered pool before)
    (served : World before request answer after)
    (continues : Continues pool index ⟨before, request, answer, after⟩)
    (orderly : Orderly (pool index).past ⟨before, request, answer, after⟩) :
    Numbered (pool.advance index ⟨before, request, answer, after⟩ program) after := by
  simp only [Orderly] at orderly
  cases request with
  | getCallbackContract uuid contractName deployer network =>
      obtain rfl := served
      exact numbered.still trivial rfl rfl
  | getNonceFromBlockchain account =>
      obtain ⟨rfl, reported⟩ := served
      cases answer with
      | error thrown => exact numbered.still trivial rfl rfl
      | ok blockChainNonce =>
          have tells : (Progress.of (pool index).past).after
              ⟨after, .getNonceFromBlockchain account, .ok blockChainNonce, after⟩ =
                .told account blockChainNonce :=
            rfl
          refine numbered.keep rfl rfl (fun _ => Nat.le_refl _) trivial rfl ?_ ?_ ?_
          · rintro _ _ ⟨⟩
            exact ⟨_, Nat.le_refl _, reported _ rfl⟩
          · rintro _ _ (same | same) <;> cases same
          · rw [tells, orderly]
            simp
  | setNonce account blockChainNonce =>
      obtain ⟨rfl, rfl⟩ := served
      exact numbered.setNonce orderly continues
  | makeContractCall options =>
      obtain ⟨rfl, _⟩ := served
      cases answer with
      | ok transaction => exact numbered.still trivial rfl rfl
      | error thrown => exact numbered.drop trivial rfl orderly rfl
  | broadcastTransaction transaction =>
      rcases served with ⟨rfl, _⟩ | ⟨rfl, _⟩
      · exact numbered.drop trivial rfl orderly (if_pos rfl)
      · exact numbered.accept orderly
  | mine account =>
      obtain rfl := served
      have grows (wallet : Account) : before.reported wallet ≤
          Function.update before.reported account (before.reported account + 1) wallet := by
        by_cases same : wallet = account
        · subst same
          simp
        · simp [same]
      exact numbered.keep rfl rfl grows trivial rfl
        (fun _ _ isTold => (numbered.told index _ _ isTold).grows grows) (fun _ _ => id)
        fun _ _ => .rfl

end Advance

/-- Along every interleaving of contract calls in which the counter is never taken for
unset while nonce zero is in use, and only counted up after calls of the wallet whose
transactions were accepted, accepted transactions have different nonces and no nonce
leaves a gap. -/
theorem interleaved_numbered (operations : ι → Operation)
    {trace : List (ι × StacksStep)} {pool : StacksPool ι} {final : Chains}
    (run : Interleaved World Continues
      (fun index => Thread.start (operations index).run.run) .initial trace pool final) :
    final.accepted.Nodup ∧ ∀ index step, (index, step) ∈ trace → WithinChain step := by
  have numbered : Numbered pool final :=
    run.invariant Numbered (fun index => locally_run (operations index))
      (numbered_initial _)
      (fun _ _ _ _ numbered _ served continues orderly _ =>
        numbered.step served continues orderly)
  refine ⟨numbered.distinct, fun index step member => ?_⟩
  have taken := run.past index
  refine numbered.within index step ?_
  rw [taken]
  refine List.mem_append_right _ (List.mem_filterMap.mpr ⟨_, member, ?_⟩)
  simp

end Interleaved

/-- Chains that answer everything, and accept some transactions. -/
def serve (accepts : Nat → Bool) :
    Responder Chains StacksRequest StacksRequest.Answer :=
  fun before request =>
    match request with
    | .getCallbackContract .. => (.ok "callback", before)
    | .getNonceFromBlockchain account =>
        (.ok (Binary64.ofNat (before.reported account)), before)
    | .setNonce _ blockChainNonce =>
        (.ok (nextNonce before.nonce blockChainNonce),
          { before with nonce := some (nextNonce before.nonce blockChainNonce) })
    | .makeContractCall options => (.ok options, before)
    | .broadcastTransaction transaction =>
        if accepts transaction.nonce then
          (.ok (.accepted "txid"), { before with
            accepted := (transaction.account, transaction.nonce) :: before.accepted })
        else (.ok (.rejected "reason"), before)
    | .mine account =>
        (.ok (), { before with
          reported :=
            Function.update before.reported account (before.reported account + 1) })

theorem world_serve (accepts : Nat → Bool) (before : Chains) (request : StacksRequest) :
    World before request (serve accepts before request).1
      (serve accepts before request).2 := by
  cases request with
  | getCallbackContract uuid contractName deployer network => exact rfl
  | getNonceFromBlockchain account =>
      refine ⟨rfl, ?_⟩
      rintro _ ⟨⟩
      rfl
  | setNonce account blockChainNonce => exact ⟨rfl, rfl⟩
  | makeContractCall options =>
      refine ⟨rfl, ?_⟩
      rintro _ ⟨⟩
      rfl
  | broadcastTransaction transaction =>
      simp only [serve]
      split_ifs
      · exact .inr ⟨rfl, nofun⟩
      · exact .inl ⟨rfl, nofun⟩
  | mine account => exact rfl

def sampleInfo : NetworkInfo :=
  ⟨⟨"mocknet", "wallet"⟩, "deployer"⟩

/-- Two calls for a wallet, one of whose transactions is mined meanwhile. -/
def sampleOperations : Fin 3 → Operation
  | 0 => .mine sampleInfo.account
  | 1 => .setStatusFunded sampleInfo "0x01" "txid"
  | 2 => .postCloseDLC sampleInfo "0x01" "txid"

def samplePool : StacksPool (Fin 3) :=
  fun index => Thread.start (sampleOperations index).run.run

theorem interleaved_numbered_sampleOperations :
    (samplePool.schedule (serve fun _ => true) [0, 1, 1, 1, 1, 1, 2, 2, 2, 2, 2]
      .initial).2.accepted.Nodup := by
  refine (interleaved_numbered sampleOperations (interleaved_schedule (serve fun _ => true)
    (world_serve fun _ => true) [0, 1, 1, 1, 1, 1, 2, 2, 2, 2, 2] ?_ .idle)).1
  have unbroken : Unbroken (samplePool.schedule (serve fun _ => true) [0, 1, 1, 1, 1, 1, 2, 2]
      .initial).1 sampleInfo.account 1 :=
    ⟨⟨1, by decide +kernel⟩, by decide +kernel⟩
  exact ⟨trivial, trivial, trivial, ⟨by decide +kernel, nofun, nofun⟩, trivial, trivial,
    trivial, trivial, ⟨by decide +kernel, by decide +kernel, fun _ _ =>
      ⟨by decide +kernel, 1, unbroken⟩⟩, trivial, trivial, trivial⟩

/-- A wallet without transactions gets nonce zero twice, and a nonce that was given to a
rejected transaction leaves a gap. -/
theorem interleaved_not_numbered :
    (∃ trace pool final, Interleaved World AnyStep samplePool .initial trace pool final ∧
      ¬ final.accepted.Nodup) ∧
    ∃ trace pool final, Interleaved World AnyStep samplePool .initial trace pool final ∧
      ¬ ∀ index step, (index, step) ∈ trace → WithinChain step := by
  refine ⟨⟨_, _, _, interleaved_schedule (serve fun _ => true) (world_serve fun _ => true)
    [1, 1, 1, 1, 1, 2, 2, 2, 2, 2] (metAlong_anyStep ..) .idle, by decide +kernel⟩, _, _, _,
    interleaved_schedule (serve fun _ => false) (world_serve fun _ => false)
      [0, 1, 1, 1, 1, 1, 2, 2, 2, 2, 2] (metAlong_anyStep ..) .idle, ?_⟩
  intro within
  have second := within _ _ (List.get_mem (samplePool.trace (serve fun _ => false)
    [0, 1, 1, 1, 1, 1, 2, 2, 2, 2, 2] .initial) ⟨8, by decide⟩)
  exact absurd second (by decide +kernel)

end StacksNonceService

end DlcStack
