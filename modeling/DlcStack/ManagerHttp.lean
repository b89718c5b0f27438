import DlcStack.AsyncStorageHttp
import DlcStack.ManagerStorage

/-!
# The managers of many wallets on one server

Here the storage API is the HTTP server, with its nonces and its check of signatures, and the
requests to it are those of the client.  Each level carries out the one above it, so the
managers do over HTTP what they do with a store of contracts for each wallet.
-/

namespace DlcStack

namespace LinkManager

open Program hiding ask
open Clients Clients.AsyncStorageApiProvider

/-- The HTTP requests to the storage API, and the requests of the parties to others. -/
abbrev HttpOrOther (Party : Type) := HttpEffect ⊕ Party × WalletRequest

abbrev HttpOrOther.Answer {Party : Type} : HttpOrOther Party → Type :=
  Sum.elim HttpEffect.Answer fun request => request.2.Answer

/-- What others answer does not depend on the server, and they do not change it. -/
def awayFrom {Party : Type} (providers : Party → AsyncStorageApiProvider) :
    Environment Storage.Server (Party × WalletRequest) fun request => request.2.Answer :=
  fun before request answer after => after = before ∧
    elsewhere providers before.db request answer before.db

/-- A request of the manager of a party, with the HTTP requests of its client. -/
def overHttp {Party : Type} {lib : Storage.Libraries}
    (providers : Party → AsyncStorageApiProvider) (apis : Party → HttpApi lib) (party : Party)
    (request : WalletRequest) :
    Program (HttpOrOther Party) HttpOrOther.Answer request.Answer :=
  (overApi providers party request).expand (carryAmid (apis party).carryOut)

section Parties

variable {Party ι : Type} {lib : Storage.Libraries} {draw : Nat → String}
  {providers : Party → AsyncStorageApiProvider} {apis : Party → HttpApi lib} {party : Party}

/-- Each request is over HTTP what it is over a network of calls. -/
theorem carriesOut_overHttp (accepted : (apis party).Accepted (providers party))
    (request : WalletRequest) :
    CarriesOut (beside (Http draw) (awayFrom providers))
      (beside Network (elsewhere providers)) Serves
      (overHttp providers apis party request) (overApi providers party request) := by
  have stored {β : Type} {operation : ProviderM β}
      (provides : (apis party).Provides draw operation) :
      CarriesOut (beside (Http draw) (awayFrom providers))
        (beside Network (elsewhere providers)) Serves
        (operation.run.amid.expand (carryAmid (apis party).carryOut)) operation.run.amid := by
    rw [expand_amid]
    exact (provides.amid_left _).amid_right _
  cases request with
  | getContract id => exact stored (HttpApi.provides_getContract accepted id)
  | createContract contract => exact stored (HttpApi.provides_create accepted contract)
  | updateContract contract => exact stored (HttpApi.provides_update accepted contract)
  | getSignedContracts => exact stored (HttpApi.provides_contractsOf accepted _ _)
  | getConfirmedContracts => exact stored (HttpApi.provides_contractsOf accepted _ _)
  | getPreclosedContracts => exact stored (HttpApi.provides_contractsOf accepted _ _)
  | _ =>
      rintro db server serves answer after ⟨rfl, served⟩
      obtain rfl : after.db = db := serves
      exact ⟨_, after.db, .one served, rfl, carriesOut_ret _⟩

end Parties

section Wallets

variable {Party ι : Type} [DecidableEq Party] [DecidableEq ι] {lib : Storage.Libraries}
  {draw : Nat → String} {providers : Party → AsyncStorageApiProvider}
  {apis : Party → HttpApi lib}

/-- However the operations of the managers of any number of wallets overlap on the HTTP
server, and whichever requests and replies the network loses, they return what they return,
and leave the contracts that they leave, if each wallet has a store of contracts of its own
for which each request is one step, as long as no contract moves to its final identifier. -/
theorem interleaved_on_server
    (distinct : Function.Injective fun party => (providers party).publicKey)
    (roundTrip : ∀ party, (providers party).RoundTrip)
    (accepted : ∀ party, (apis party).Accepted (providers party)) {wallet : ι → Party}
    {managers : ι → Manager} {operations : ι → Operation}
    (stays : ∀ index, (operations index).stays = true)
    {stores : Party → ContractStore} {start final : Storage.Server}
    (represents : ∀ party, (providers party).Represents (stores party) start.db)
    {trace : List (ι × Step Storage.Server (HttpOrOther Party) HttpOrOther.Answer)}
    {pool : Pool ι Storage.Server (HttpOrOther Party) HttpOrOther.Answer
      (Except DlcError Outcome)}
    (run : Interleaved (beside (Http draw) (awayFrom providers)) AnyStep
      (fun index => Thread.start (((operations index).run (managers index)).run.expand
        (overHttp providers apis (wallet index))))
      start trace pool final) (watched : List ι) :
    ∃ requests threads after, Interleaved (Worlds Party) AnyStep
        (fun index => Thread.start
          (((operations index).run (managers index)).run.ofParty (wallet index)))
        stores requests threads after ∧
      (∀ party, (providers party).Represents (after party) final.db) ∧
      ∀ index ∈ watched, ∀ result, (pool index).program = ret result →
        (threads index).program = ret result := by
  let calls : Pool ι Storage.Database (ApiOrOther Party) ApiOrOther.Answer
      (Except DlcError Outcome) :=
    fun index => Thread.start (((operations index).run (managers index)).run.expand
      (overApi providers (wallet index)))
  let specified : Pool ι (Party → ContractStore) (Party × WalletRequest)
      (fun request => request.2.Answer) (Except DlcError Outcome) :=
    fun index => Thread.start
      (((operations index).run (managers index)).run.ofParty (wallet index))
  -- From the server to a network of calls, and from there to the stores.
  have onNetwork (index : ι) : CarriesOut (beside (Http draw) (awayFrom providers))
      (beside Network (elsewhere providers)) Serves
      (((operations index).run (managers index)).run.expand
        (overHttp providers apis (wallet index))) (calls index).program :=
    CarriesOut.expand (fun request _ => carriesOut_overHttp (accepted _) request)
      (Operation.asks_stays (stays index) (managers index))
  have onStores (index : ι) : CarriesOut (beside Network (elsewhere providers)) (Worlds Party)
      (RepresentsAll providers) (calls index).program (specified index).program :=
    carriesOut_operation distinct (roundTrip _) (stays index) (managers index)
  have serves : Serves start.db start := rfl
  have represents : RepresentsAll providers stores start.db := represents
  obtain ⟨sent, threads, db, carried, serves, -, called⟩ :=
    run.carriesOut_returned serves onNetwork watched
  obtain rfl : final.db = db := serves
  obtain ⟨requests, threads, after, simulated, represents, -, returned⟩ :=
    carried.carriesOut_returned represents onStores watched
  exact ⟨requests, threads, after, simulated, represents, fun index member result ends =>
    returned index member result (called index member result ends)⟩

end Wallets

/-! ### Two wallets that receive the same offer -/

/-- The clients of two wallets, with different keys. -/
def sampleClients (wallet : Bool) : HttpApi .symbolic :=
  ⟨.symbolic, if wallet then "alice" else "bob", "connection closed"⟩

def sampleOwners (wallet : Bool) : AsyncStorageApiProvider :=
  sampleFormats.provider (sampleClients wallet).key

theorem sampleOwners_distinct :
    Function.Injective fun wallet => (sampleOwners wallet).publicKey := by
  have all : ∀ first second, (sampleOwners first).publicKey =
      (sampleOwners second).publicKey → first = second := by decide
  exact fun first second => all first second

theorem sampleClients_accepted (wallet : Bool) :
    (sampleClients wallet).Accepted (sampleOwners wallet) :=
  ⟨Storage.Signer.symbolic_agrees, Storage.Libraries.symbolic_nests, rfl⟩

def sampleDraw (number : Nat) : String :=
  String.ofList (List.replicate number 'n')

def serveAll : Responder Storage.Server (HttpOrOther Bool) HttpOrOther.Answer :=
  fun server request =>
    match request with
    | .inl effect => serveHttp sampleDraw server effect
    | .inr request => (sampleElsewhere request.2, server)

theorem beside_serveAll (server : Storage.Server) (request : HttpOrOther Bool) :
    beside (Http sampleDraw) (awayFrom sampleOwners) server request (serveAll server request).1
      (serveAll server request).2 := by
  cases request with
  | inl effect => exact http_serveHttp sampleDraw server effect
  | inr request =>
      exact ⟨rfl, rfl, fun store _ => world_sampleElsewhere store request.2⟩

def sampleServing (wallet : Bool) :
    Program (HttpOrOther Bool) HttpOrOther.Answer (Except DlcError Outcome) :=
  ((sampleReceiving wallet).run sampleManager).run.expand
    (overHttp sampleOwners sampleClients wallet)

/-- The one wallet has a nonce for its first request, the other does all of its work, and
the first goes on. -/
def sampleWaiting : Program (HttpOrOther Bool) HttpOrOther.Answer (Except DlcError Outcome) ×
    Storage.Server :=
  (sampleServing true).forward serveAll 7 (.initial .empty)

def sampleOvertaking : Program (HttpOrOther Bool) HttpOrOther.Answer (Except DlcError Outcome) ×
    Storage.Server :=
  (sampleServing false).forward serveAll 19 sampleWaiting.2

def sampleServed : Program (HttpOrOther Bool) HttpOrOther.Answer (Except DlcError Outcome) ×
    Storage.Server :=
  sampleWaiting.1.forward serveAll 12 sampleOvertaking.2

theorem isProcessed_sampleServed :
    isProcessed sampleOvertaking.1 = true ∧ isProcessed sampleServed.1 = true := by
  decide +kernel

theorem interleaved_on_server_sampleServed :
    ∃ requests threads after, Interleaved (Worlds Bool) AnyStep
        (fun wallet => Thread.start
          (((sampleReceiving wallet).run sampleManager).run.ofParty wallet))
        (fun _ => .empty) requests threads after ∧
      (∀ wallet, (sampleOwners wallet).Represents (after wallet) sampleServed.2.db) ∧
      ∀ wallet, (threads wallet).program = ret (.ok (.reply none)) := by
  have initially (wallet : Bool) : (sampleOwners wallet).Represents .empty
      (Storage.Server.initial .empty).db := represents_empty _
  have waits : Reaches (beside (Http sampleDraw) (awayFrom sampleOwners)) (sampleServing true)
      (.initial .empty) sampleWaiting.1 sampleWaiting.2 :=
    reaches_forward serveAll beside_serveAll 7 _ _
  have overtakes : Reaches (beside (Http sampleDraw) (awayFrom sampleOwners))
      (sampleServing false) sampleWaiting.2 sampleOvertaking.1 sampleOvertaking.2 :=
    reaches_forward serveAll beside_serveAll 19 _ _
  have ends : Reaches (beside (Http sampleDraw) (awayFrom sampleOwners)) sampleWaiting.1
      sampleOvertaking.2 sampleServed.1 sampleServed.2 :=
    reaches_forward serveAll beside_serveAll 12 _ _
  obtain ⟨_, _, run, ended, overtaken⟩ := interleaved_overtaking (by decide) waits overtakes
    ends
  obtain ⟨first, second⟩ := isProcessed_sampleServed
  obtain ⟨requests, threads, after, run, represents, returned⟩ :=
    interleaved_on_server sampleOwners_distinct
      (fun wallet => sampleFormats.provider_roundTrip sampleFormats_roundTrip _)
      sampleClients_accepted stays_sampleReceiving initially run [true, false]
  refine ⟨requests, threads, after, run, represents, fun wallet => ?_⟩
  cases wallet with
  | true => exact returned true (by simp) _ (ended.trans (eq_ret_of_isProcessed second))
  | false => exact returned false (by simp) _ (overtaken.trans (eq_ret_of_isProcessed first))

end LinkManager

end DlcStack
