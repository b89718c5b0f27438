import DlcStack.EffectOwnership
import DlcStack.ManagerStorage

/-!
# Wallets that do one thing at a time on the storage API

The update of a contract that moves to its final identifier takes three requests to the
storage API, between which the records are those of no store.  Only the owner can see them,
so wallets that do one thing at a time find each update done or not, if nothing is lost.
-/

namespace DlcStack

namespace LinkManager

open Program hiding ask
open Clients Clients.AsyncStorageApiProvider

variable {provider : AsyncStorageApiProvider} {store : ContractStore} {db : Storage.Database}

/-! ## The update of a contract that moves -/

/-- A request whose reply arrives, with nothing carried out yet. -/
theorem carriesOutFrom_call {α β : Type} {call : Storage.Call}
    {read : Storage.Response → Except ApiError α}
    {rest : Except ApiError α → Program ApiRequest ApiRequest.Answer β}
    {env : Environment ContractStore WalletRequest WalletRequest.Answer}
    {specified : Program WalletRequest WalletRequest.Answer β}
    (later : ∀ before, LeavesRows provider db before →
      CarriesOutFrom (NetworkWith False) env (LeavesRows provider) provider.Represents
        (rest (read (call.respond before).1)) specified store
        (call.respond before).2) :
    CarriesOutFrom (NetworkWith False) env (LeavesRows provider) provider.Represents
      ((StorageApiClient.request call read).run >>= rest) specified store db := by
  rintro middle moved nonce unchanged ⟨same, arrives⟩
  obtain rfl : unchanged = middle := same
  cases nonce with
  | error error => exact absurd (arrives.resolve_left id) nofun
  | ok nonce =>
      refine ⟨specified, store, .refl, ?_⟩
      rintro before further answer after ⟨served, arrives⟩
      rcases served with ⟨rfl, rfl⟩ | ⟨⟨error, rfl⟩, -⟩
      · exact ⟨specified, store, .refl, later before (further.trans moved)⟩
      · exact absurd (arrives.resolve_left id) nofun

/-- The creation that an update falls back on. -/
def creation (provider : AsyncStorageApiProvider) (contract : DlcContract) (content : String) :
    Program ApiRequest ApiRequest.Answer (Except DlcError Unit) :=
  (StorageApiClient.createContract (provider.newRequest contract content)).run >>=
    concluded fun _ => pure ()

/-- What an update does when its request was answered. -/
def updated (provider : AsyncStorageApiProvider) (contract : DlcContract) (content : String) :
    Except ApiError Unit → Program ApiRequest ApiRequest.Answer (Except DlcError Unit)
  | .ok _ => ret (.ok ())
  | .error _ => creation provider contract content

theorem run_updateMoved {contract : DlcContract} {content : String}
    (encoded : provider.encode contract = .ok content) :
    (provider.updateMoved contract).run =
      (StorageApiClient.deleteContract (provider.deletion contract)).run >>= fun _ =>
        (StorageApiClient.updateContract (provider.updateRequest contract content)).run >>=
          updated provider contract content := by
  have deletes (rest : Program ApiRequest ApiRequest.Answer (Except DlcError Unit)) :
      ((provider.deleteContract contract.getTemporaryId).run >>= fun _ => rest) =
        (StorageApiClient.deleteContract (provider.deletion contract)).run >>= fun _ => rest := by
    unfold deleteContract toStorageError
    rw [ExceptT.run_mk, bind_assoc]
    refine congrArg _ (funext fun result => ?_)
    cases result <;> rfl
  unfold updateMoved AsyncStorageApiProvider.content
  rw [ExceptT.run_bind_lift, encoded]
  simp only [pure_bind, ExceptT.run_bind_lift]
  rw [deletes]
  refine congrArg _ (funext fun _ => congrArg _ (funext fun result => ?_))
  cases result with
  | ok _ => rfl
  | error error =>
      change (toStorageError (StorageApiClient.createContract _) >>= _).run = _
      unfold StorageApiClient.createContract
      rw [run_toStorageError_bind]
      rfl

/-- The update of a contract that moves is one step of the store for its owner. -/
theorem carriesOutFrom_updateMoved (roundTrip : provider.RoundTrip) {contract : DlcContract}
    (moved : contract.isMoved = true)
    {content : String} (encoded : provider.encode contract = .ok content)
    (represents : provider.Represents store db) :
    CarriesOutFrom (NetworkWith False) (WorldOver provider False) (LeavesRows provider)
      provider.Represents (provider.updateMoved contract).run
      (perform (WalletRequest.updateContract contract)) store db := by
  have stores : WorldOver provider False store (.updateContract contract) (.ok ())
      ((store.erase contract.getTemporaryId).put contract) := by
    refine worldOver_ok (.inl ⟨rfl, ?_⟩)
    unfold ContractStore.updateContract
    rw [if_pos moved]
  -- The deletion and an update that finds no record leave the step to be taken.
  rw [run_updateMoved encoded]
  unfold StorageApiClient.deleteContract StorageApiClient.updateContract
  apply carriesOutFrom_call
  intro before left
  have deleted := (represents.frame left).delete contract.getTemporaryId
  apply carriesOutFrom_call
  intro before left
  rcases (deleted.frame left).update roundTrip encoded with
    ⟨after, answered, replaced, represents⟩ | ⟨absent, free, represents⟩
  · rw [answered]
    refine ⟨_, .one stores, represents.congr fun id => ?_⟩
    rw [UniqueTable.find?_put, UniqueTable.find?_replace replaced]
  · rw [absent]
    apply carriesOutFrom_call
    intro before left
    obtain ⟨row, after, answered, inserted, represents⟩ :=
      (represents.frame left).create_new roundTrip encoded free
    rw [answered]
    refine ⟨_, .one stores, represents.congr fun id => ?_⟩
    rw [UniqueTable.find?_put, UniqueTable.find?_insert inserted]

/-! ## The requests of a wallet -/

/-- What others answer does not depend on replies being lost. -/
theorem World.lossless {request : WalletRequest} {answer : request.Answer}
    (read : request.isWrite = false) (served : World True store request answer store) :
    World False store request answer store := by
  cases request with
  | createContract contract => cases read
  | updateContract contract => cases read
  | _ => exact served

section Wallets

variable {Party : Type} {providers : Party → AsyncStorageApiProvider} {party : Party}

/-- Each request is one step of the store for the wallet that makes it. -/
theorem carriesOutFrom_overApi (roundTrip : (providers party).RoundTrip)
    (encodes : ∀ contract : DlcContract, contract.isMoved = true →
      ∃ content, (providers party).encode contract = .ok content)
    (request : WalletRequest) (represents : (providers party).Represents store db) :
    CarriesOutFrom (beside (NetworkWith False) (elsewhere providers))
      (WorldOver (providers party) False) (LeavesRows (providers party))
      (providers party).Represents (overApi providers party request) (perform request) store
      db := by
  have stored {program : Program ApiRequest ApiRequest.Answer request.Answer}
      (carries : CarriesOut (NetworkWith False) (WorldOver (providers party) False)
        (providers party).Represents program (perform request)) :
      CarriesOutFrom (beside (NetworkWith False) (elsewhere providers))
        (WorldOver (providers party) False) (LeavesRows (providers party))
        (providers party).Represents program.amid (perform request) store db :=
    (carries.amid_left _).fromStates (fun _ _ _ represents left => represents.frame left)
      represents
  have others (read : request.isWrite = false)
      (leftOpen : Refuses (providers party) store request) :
      CarriesOutFrom (beside (NetworkWith False) (elsewhere providers))
        (WorldOver (providers party) False) (LeavesRows (providers party))
        (providers party).Represents
        (@perform (ApiOrOther Party) ApiOrOther.Answer (.inr (party, request)))
        (perform request) store db := by
    rintro before left answer after ⟨rfl, served⟩
    have represents := represents.frame left
    have answered : WorldOver (providers party) False store request answer store :=
      ⟨World.lossless read (served store represents), .inr fun _ _ => leftOpen⟩
    exact ⟨ret answer, store, .one answered, store, .refl, represents⟩
  cases request with
  | getContract id => exact stored (carriesOut_getContract id)
  | createContract contract => exact stored (carriesOut_createContract roundTrip contract)
  | updateContract contract =>
      cases moved : contract.isMoved with
      | false => exact stored (carriesOut_updateContract roundTrip moved)
      | true =>
          obtain ⟨content, encoded⟩ := encodes contract moved
          have unfolded : (providers party).updateContract contract =
              (providers party).updateMoved contract := by
            cases contract with
            | accepted accepted => rfl
            | signed signed => rfl
            | _ => cases moved
          have carries := carriesOutFrom_updateMoved roundTrip moved encoded represents
          rw [← unfolded] at carries
          exact carries.amid_left _
  | getSignedContracts => exact stored carriesOut_getSignedContracts
  | getConfirmedContracts => exact stored carriesOut_getConfirmedContracts
  | getPreclosedContracts => exact stored carriesOut_getPreclosedContracts
  | _ => exact others rfl trivial

/-- The requests to the storage API with the key of a wallet, and all requests to others. -/
def NamesOwn (providers : Party → AsyncStorageApiProvider) (party : Party) :
    ApiOrOther Party → Prop :=
  Sum.elim (Names (providers party).publicKey) fun _ => True

theorem asks_overApi (request : WalletRequest) :
    Asks (NamesOwn providers party) (overApi providers party request) := by
  cases request with
  | getContract id => exact asks_amid (asks_getContract id)
  | createContract contract => exact asks_amid (asks_createContract contract)
  | updateContract contract => exact asks_amid (asks_updateContract contract)
  | getSignedContracts => exact asks_amid (asks_contractsOf _ _)
  | getConfirmedContracts => exact asks_amid (asks_contractsOf _ _)
  | getPreclosedContracts => exact asks_amid (asks_contractsOf _ _)
  | _ => exact ⟨trivial, fun _ => trivial⟩

/-- Wallets with different keys leave each other's records alone. -/
theorem apart_wallets (distinct : Function.Injective fun party => (providers party).publicKey) :
    Apart (beside (NetworkWith False) (elsewhere providers))
      (fun party => LeavesRows (providers party)) (fun party => (providers party).Represents)
      (NamesOwn providers) where
  refl _ _ := rfl
  trans _ _ _ _ first second := second.trans first
  stable _ _ _ _ represents left := represents.frame left
  frame party request names before answer after served other different := by
    cases request with
    | inl request =>
        exact leavesRows_of_names (fun same => different (distinct same)) names served.1
    | inr request =>
        obtain ⟨rfl, -⟩ := served
        rfl

/-- However the programs of any number of wallets overlap on the storage API, if nothing is
lost they return what they return, and leave the contracts that they leave, with a store of
contracts of each wallet's own that does each request in one step unless it refuses it. -/
theorem interleaved_wallets {α : Type} [DecidableEq Party]
    (distinct : Function.Injective fun party => (providers party).publicKey)
    (roundTrip : ∀ party, (providers party).RoundTrip)
    (encodes : ∀ party, ∀ contract : DlcContract, contract.isMoved = true →
      ∃ content, (providers party).encode contract = .ok content)
    {programs : Party → Program WalletRequest WalletRequest.Answer α}
    {stores : Party → ContractStore} {start final : Storage.Database}
    (represents : ∀ party, (providers party).Represents (stores party) start)
    {trace : List (Party × Step Storage.Database (ApiOrOther Party) ApiOrOther.Answer)}
    {pool : Pool Party Storage.Database (ApiOrOther Party) ApiOrOther.Answer α}
    (run : Interleaved (beside (NetworkWith False) (elsewhere providers)) AnyStep
      (fun party => Thread.start ((programs party).expand (overApi providers party)))
      start trace pool final) (watched : List Party) :
    ∃ requests threads after, Interleaved
        (apart fun party => WorldOver (providers party) False) AnyStep
        (fun party => Thread.start ((programs party).ofParty party)) stores requests threads
        after ∧
      ∀ party ∈ watched, ∀ result, (pool party).program = ret result →
        (threads party).program = ret result ∧
          (providers party).Represents (after party) final := by
  have each (party : Party) : Abreast (beside (NetworkWith False) (elsewhere providers))
      (fun party => WorldOver (providers party) False)
      (fun party => LeavesRows (providers party))
      (fun party => (providers party).Represents)
      (fun party => Thread.start ((programs party).expand (overApi providers party)))
      (fun party => Thread.start ((programs party).ofParty party)) stores start party := by
    refine ⟨programs party, rfl, ?_⟩
    exact carriesOutFrom_expand (fun request _ _ represents =>
      carriesOutFrom_overApi (roundTrip party) (encodes party) request represents)
      (programs party) (represents party)
  obtain ⟨requests, threads, after, simulated, -, returned⟩ :=
    run.carriesOutFrom_returned (apart_wallets distinct)
      (fun party => asks_expand asks_overApi (programs party)) each watched
  exact ⟨requests, threads, after, simulated, returned⟩

end Wallets

/-! ### Two wallets that store the same contract -/

theorem sampleProviders_encodes (wallet : Bool) (contract : DlcContract)
    (moved : contract.isMoved = true) :
    ∃ content, (sampleProviders wallet).encode contract = .ok content := by
  cases contract with
  | accepted accepted => exact ⟨_, rfl⟩
  | signed signed => exact ⟨_, rfl⟩
  | _ => cases moved

/-- Nothing is lost. -/
theorem lossless_serveApi (db : Storage.Database) (request : ApiOrOther Bool) :
    beside (NetworkWith False) (elsewhere sampleProviders) db request
      (serveApi db request).1 (serveApi db request).2 := by
  cases request with
  | inl request =>
      refine ⟨network_deliver db request, .inr ?_⟩
      cases request <;> rfl
  | inr request => exact beside_serveApi db (.inr request)

/-- An offer is stored, and then signed under its final identifier. -/
def sampleStoring (_ : Bool) : Program WalletRequest WalletRequest.Answer (Except DlcError Unit) :=
  (do let _ ← ask (.createContract ⟨Vector.replicate 32 0, [], "peer"⟩)
      ask (.updateContract (.signed ⟨⟨⟨Vector.replicate 32 0, [], "peer"⟩, [],
        ⟨⟨"fund", 0⟩, ⟨"refund", 100⟩, "script"⟩, Vector.replicate 32 1⟩, none⟩)) :
    ManagerM Unit).run

def sampleStorage (wallet : Bool) :
    Program (ApiOrOther Bool) ApiOrOther.Answer (Except DlcError Unit) :=
  (sampleStoring wallet).expand (overApi sampleProviders wallet)

/-- The one wallet has deleted its record, the other does all of its work, and the first
goes on. -/
def sampleDeleting : Program (ApiOrOther Bool) ApiOrOther.Answer (Except DlcError Unit) ×
    Storage.Database :=
  (sampleStorage true).forward serveApi 4 .empty

def sampleBetween : Program (ApiOrOther Bool) ApiOrOther.Answer (Except DlcError Unit) ×
    Storage.Database :=
  (sampleStorage false).forward serveApi 8 sampleDeleting.2

def sampleStoredBoth : Program (ApiOrOther Bool) ApiOrOther.Answer (Except DlcError Unit) ×
    Storage.Database :=
  sampleDeleting.1.forward serveApi 4 sampleBetween.2

def succeeds {Req : Type} {Ans : Req → Type} : Program Req Ans (Except DlcError Unit) → Bool
  | .ret (.ok ()) => true
  | _ => false

theorem eq_ret_of_succeeds {Req : Type} {Ans : Req → Type}
    {program : Program Req Ans (Except DlcError Unit)} (success : succeeds program = true) :
    program = ret (.ok ()) := by
  unfold succeeds at success
  split at success
  · rfl
  · cases success

theorem succeeds_sampleStoredBoth :
    succeeds sampleBetween.1 = true ∧ succeeds sampleStoredBoth.1 = true := by
  decide +kernel

theorem interleaved_wallets_sampleStoredBoth :
    ∃ requests threads after, Interleaved
        (apart fun wallet => WorldOver (sampleProviders wallet) False) AnyStep
        (fun wallet => Thread.start ((sampleStoring wallet).ofParty wallet))
        (fun _ => .empty) requests threads after ∧
      ∀ wallet, (threads wallet).program = ret (.ok ()) ∧
        (sampleProviders wallet).Represents (after wallet) sampleStoredBoth.2 := by
  have initially (wallet : Bool) : (sampleProviders wallet).Represents .empty .empty :=
    represents_empty _
  have deletes : Reaches (beside (NetworkWith False) (elsewhere sampleProviders))
      (sampleStorage true) .empty sampleDeleting.1 sampleDeleting.2 :=
    reaches_forward serveApi lossless_serveApi 4 _ _
  have overtakes : Reaches (beside (NetworkWith False) (elsewhere sampleProviders))
      (sampleStorage false) sampleDeleting.2 sampleBetween.1 sampleBetween.2 :=
    reaches_forward serveApi lossless_serveApi 8 _ _
  have ends : Reaches (beside (NetworkWith False) (elsewhere sampleProviders))
      sampleDeleting.1 sampleBetween.2 sampleStoredBoth.1 sampleStoredBoth.2 :=
    reaches_forward serveApi lossless_serveApi 4 _ _
  obtain ⟨_, _, run, ended, overtaken⟩ := interleaved_overtaking (by decide) deletes overtakes
    ends
  obtain ⟨first, second⟩ := succeeds_sampleStoredBoth
  obtain ⟨requests, threads, after, run, returned⟩ :=
    interleaved_wallets sampleProviders_apart
      (fun wallet => sampleFormats.provider_roundTrip sampleFormats_roundTrip _)
      sampleProviders_encodes initially run [true, false]
  refine ⟨requests, threads, after, run, fun wallet => ?_⟩
  cases wallet with
  | true => exact returned true (by simp) _ (ended.trans (eq_ret_of_succeeds second))
  | false => exact returned false (by simp) _ (overtaken.trans (eq_ret_of_succeeds first))

end LinkManager

end DlcStack
