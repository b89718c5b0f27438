import DlcStack.EffectInterleaving
import DlcStack.JsInterfaceWallet

/-!
# The chain cache behind the browser wallet

`get_wallet_balance` refreshes the cache of the Esplora provider, first the list
of UTXOs and then the transaction of each, and copies the list to the wallet.
Calls overlap at their HTTP requests.  Every UTXO of the wallet has its
transaction in the cache unless the list was replaced by a call that is not
through; calls that do not overlap never copy such a list.
-/

namespace DlcStack

namespace EsploraProvider

open Program

/-- An entry of the list that Esplora returns for an address. -/
structure UtxoResp where
  txid : String
  vout : Nat
  value : Nat
  deriving DecidableEq, Repr

structure ChainCacheData where
  utxos : List Utxo
  txs : String → Option Transaction
  height : Nat

/-- What is used of the `bitcoin` crate. -/
structure BitcoinFormats where
  parseTxid : String → Except String Txid
  parseAddress : String → Except String String
  scriptPubkey : String → String
  decodeTransaction : List UInt8 → Except String Transaction

inductive ChainRequest where
  | getHeight
  | getAddressUtxo (address : String)
  | getRawTx (txid : String)
  -- what happens between the HTTP requests
  | setHeight (height : Nat)
  | storeUtxos (utxos : List Utxo)
  | insertTx (txid : String) (transaction : Transaction)
  | copyUtxos
  | getUtxos
  deriving DecidableEq

namespace ChainRequest

/-- What a request that succeeds returns. -/
abbrev Reply : ChainRequest → Type
  | getHeight => Nat
  | getAddressUtxo _ => List UtxoResp
  | getRawTx _ => List UInt8
  | setHeight _ => Unit
  | storeUtxos _ => Unit
  | insertTx _ _ => Unit
  | copyUtxos => Unit
  | getUtxos => List Utxo

abbrev Answer (request : ChainRequest) : Type :=
  Except DlcError request.Reply

end ChainRequest

abbrev ChainM := ExceptT DlcError (Program ChainRequest ChainRequest.Answer)

def ask (request : ChainRequest) : ChainM request.Reply :=
  ExceptT.mk (perform request)

/-- The UTXO of an entry; an entry whose transaction identifier cannot be parsed is
left out. -/
def newUtxo (formats : BitcoinFormats) (address : String) (entry : UtxoResp) :
    Option Utxo :=
  match formats.parseTxid entry.txid with
  | .ok id =>
      some ⟨⟨id, entry.vout⟩, ⟨entry.value, formats.scriptPubkey address⟩, address, "",
        false⟩
  | .error _ => none

/-- The loop of `refresh_chain_data` over the new UTXOs. -/
def fetchTxs (formats : BitcoinFormats) : List Utxo → ChainM Unit
  | [] => return ()
  | utxo :: rest => do
      let rawTx ← ask (.getRawTx utxo.outpoint.txid)
      match formats.decodeTransaction rawTx with
      | .ok transaction =>
          let _ ← ask (.insertTx utxo.outpoint.txid transaction)
          fetchTxs formats rest
      | .error error => throw (.blockchainError error)

/-- `refresh_chain_data` -/
def refreshChainData (formats : BitcoinFormats) (address : String) : ChainM Unit := do
  let height ← ask .getHeight
  let _ ← ask (.setHeight height)
  let fetchedUtxos ← ask (.getAddressUtxo address)
  match formats.parseAddress address with
  | .ok parsed =>
      let newUtxos := fetchedUtxos.filterMap (newUtxo formats parsed)
      let _ ← ask (.storeUtxos newUtxos)
      fetchTxs formats newUtxos
  | .error error => throw (.blockchainError ("Invalid Address format: " ++ error))

/-- `get_transaction` -/
def getTransaction (cache : ChainCacheData) (txid : Txid) : Except DlcError Transaction :=
  match cache.txs txid with
  | some transaction => .ok transaction
  | none => .error (.blockchainError ("tx not found " ++ txid))

/-- `.map_err(|_e| JsError::new(message))` -/
def orJsError {α : Type} (message : String) (operation : ChainM α) :
    ExceptT String (Program ChainRequest ChainRequest.Answer) α :=
  ExceptT.adapt (fun _ => message) operation

/-- `get_wallet_balance` -/
def getWalletBalance (formats : BitcoinFormats) (address : String) :
    ExceptT String (Program ChainRequest ChainRequest.Answer) Nat := do
  let _ ← orJsError
    "Failed to communicate with the Bitcoin blockchain. Please try again later!"
    (refreshChainData formats address)
  let _ ← orJsError "Failed to set UTXOs. Please try again later!" (ask .copyUtxos)
  let utxos ← orJsError
    "Failed to retrieve the Bitcoin balance. Please try again later!" (ask .getUtxos)
  return utxos.foldl (fun total utxo => total + utxo.txOut.value) 0

/-! ## The cache, the wallet and the chain -/

/-- The cache of the provider and the wallet. -/
structure WalletState where
  cache : ChainCacheData
  wallet : JsInterfaceWallet

def WalletState.initial (address : String) : WalletState :=
  ⟨⟨[], fun _ => none, 0⟩, .new address⟩

abbrev ChainStep := Step WalletState ChainRequest ChainRequest.Answer

/-- Esplora answers as it likes, and what happens between the requests succeeds. -/
def World : Environment WalletState ChainRequest ChainRequest.Answer
  | before, .setHeight height, answer, after =>
      answer = .ok () ∧ after = { before with cache.height := height }
  | before, .storeUtxos utxos, answer, after =>
      answer = .ok () ∧ after = { before with cache.utxos := utxos }
  | before, .insertTx txid transaction, answer, after =>
      answer = .ok () ∧ after =
        { before with cache.txs := Function.update before.cache.txs txid transaction }
  | before, .copyUtxos, answer, after =>
      answer = .ok () ∧
        after = { before with wallet := before.wallet.setUtxos before.cache.utxos }
  | before, .getUtxos, answer, after => answer = .ok before.cache.utxos ∧ after = before
  | before, _, _, after => after = before

/-! ## How far a call has come -/

/-- The list that the steps of a call stored. -/
def storedUtxos (past : List ChainStep) : Option (List Utxo) :=
  past.findSome? fun
    | ⟨_, .storeUtxos utxos, _, _⟩ => some utxos
    | _ => none

/-- The transactions that the steps of a call put into the cache. -/
def insertedTxs (past : List ChainStep) : List String :=
  past.filterMap fun
    | ⟨_, .insertTx txid _, _, _⟩ => some txid
    | _ => none

/-- The transactions of the stored list that the call has not put into the cache. -/
def unfetched (past : List ChainStep) : List String :=
  (((storedUtxos past).getD []).map (·.outpoint.txid)).filter
    fun txid => txid ∉ insertedTxs past

/-- A call copies the list when it has fetched the transactions of the one it stored. -/
def Orderly (past : List ChainStep) (step : ChainStep) : Prop :=
  match step.request with
  | .storeUtxos _ => storedUtxos past = none
  | .copyUtxos => storedUtxos past ≠ none ∧ unfetched past = []
  | _ => True

theorem storedUtxos_snoc (past : List ChainStep) (step : ChainStep) :
    storedUtxos (past ++ [step]) = (storedUtxos past).or (storedUtxos [step]) :=
  List.findSome?_append

theorem insertedTxs_append (front back : List ChainStep) :
    insertedTxs (front ++ back) = insertedTxs front ++ insertedTxs back :=
  List.filterMap_append

theorem mem_unfetched {past : List ChainStep} {txid : String} :
    txid ∈ unfetched past ↔
      (∃ utxo ∈ (storedUtxos past).getD [], utxo.outpoint.txid = txid) ∧
        txid ∉ insertedTxs past := by
  simp [unfetched]

/-- The steps that neither store a list nor put a transaction into the cache. -/
def Idle (step : ChainStep) : Prop :=
  storedUtxos [step] = none ∧ insertedTxs [step] = []

theorem Idle.stored {past : List ChainStep} {step : ChainStep} (idle : Idle step) :
    storedUtxos (past ++ [step]) = storedUtxos past := by
  rw [storedUtxos_snoc, idle.1, Option.or_none]

theorem Idle.inserted {past : List ChainStep} {step : ChainStep} (idle : Idle step) :
    insertedTxs (past ++ [step]) = insertedTxs past := by
  rw [insertedTxs_append, idle.2, List.append_nil]

theorem Idle.unfetched {past : List ChainStep} {step : ChainStep} (idle : Idle step) :
    unfetched (past ++ [step]) = unfetched past := by
  simp only [EsploraProvider.unfetched, idle.stored, idle.inserted]

/-- What the call has yet to fetch is what its loop has yet to go through. -/
def Fetching (remaining : List Utxo) (past : List ChainStep) : Prop :=
  storedUtxos past ≠ none ∧
    ∀ txid ∈ unfetched past, ∃ utxo ∈ remaining, utxo.outpoint.txid = txid

theorem Fetching.insert {utxo : Utxo} {rest : List Utxo} {past : List ChainStep}
    {before after : WalletState} {transaction : Transaction}
    {answer : Except DlcError Unit} (fetching : Fetching (utxo :: rest) past) :
    Fetching rest (past ++
      [⟨before, .insertTx utxo.outpoint.txid transaction, answer, after⟩]) := by
  have stored : storedUtxos (past ++
      [⟨before, .insertTx utxo.outpoint.txid transaction, answer, after⟩]) =
        storedUtxos past := by
    rw [storedUtxos_snoc]
    exact Option.or_none
  have inserted : insertedTxs (past ++
      [⟨before, .insertTx utxo.outpoint.txid transaction, answer, after⟩]) =
        insertedTxs past ++ [utxo.outpoint.txid] :=
    insertedTxs_append _ _
  refine ⟨by rw [stored]; exact fetching.1, fun txid member => ?_⟩
  obtain ⟨listed, missing⟩ := mem_unfetched.mp member
  rw [stored] at listed
  rw [inserted, List.mem_append, List.mem_singleton, not_or] at missing
  obtain ⟨other, otherMem, same⟩ := fetching.2 txid (mem_unfetched.mpr ⟨listed, missing.1⟩)
  rcases List.mem_cons.mp otherMem with rfl | otherMem
  · exact absurd same.symm missing.2
  · exact ⟨other, otherMem, same⟩

section Locally

variable {past : List ChainStep} {state : WalletState}

/-- The loop ends with nothing left to fetch. -/
theorem always_fetchTxs (formats : BitcoinFormats) (utxos : List Utxo)
    (fetching : Fetching utxos past) :
    Always World (fun _ _ => True) Orderly
      (fun past result _ => result = .ok () → Fetching [] past)
      past state (fetchTxs formats utxos).run := by
  induction utxos generalizing past state with
  | nil => exact fun _ => fetching
  | cons utxo rest ih =>
      intro before _ answer after _
      refine ⟨trivial, ?_⟩
      cases answer with
      | error error => exact nofun
      | ok rawTx =>
          have asked : Fetching (utxo :: rest)
              (past ++ [⟨before, .getRawTx utxo.outpoint.txid, .ok rawTx, after⟩]) := by
            have idle : Idle ⟨before, .getRawTx utxo.outpoint.txid, .ok rawTx, after⟩ :=
              ⟨rfl, rfl⟩
            refine ⟨by rw [idle.stored]; exact fetching.1, ?_⟩
            rw [idle.unfetched]
            exact fetching.2
          change Always World _ Orderly _ _ _ (ExceptT.run
            (match formats.decodeTransaction rawTx with
              | .ok transaction => do
                  let _ ← ask (.insertTx utxo.outpoint.txid transaction)
                  fetchTxs formats rest
              | .error error => throw (.blockchainError error)))
          cases formats.decodeTransaction rawTx with
          | error error => exact nofun
          | ok transaction =>
              intro before _ answer after _
              refine ⟨trivial, ?_⟩
              cases answer with
              | error error => exact nofun
              | ok _ => exact ih asked.insert

theorem always_refreshChainData (formats : BitcoinFormats) (address : String) :
    Always World (fun _ _ => True) Orderly
      (fun past result _ => result = .ok () → Fetching [] past) [] state
      (refreshChainData formats address).run := by
  intro before _ height after _
  refine ⟨trivial, ?_⟩
  cases height with
  | error error => exact nofun
  | ok height =>
  intro before _ answer after _
  refine ⟨trivial, ?_⟩
  cases answer with
  | error error => exact nofun
  | ok _ =>
  intro before _ fetchedUtxos after _
  refine ⟨trivial, ?_⟩
  cases fetchedUtxos with
  | error error => exact nofun
  | ok fetchedUtxos =>
  change Always World _ Orderly _ _ _ (ExceptT.run
    (match formats.parseAddress address with
      | .ok parsed => do
          let _ ← ask (.storeUtxos (fetchedUtxos.filterMap (newUtxo formats parsed)))
          fetchTxs formats (fetchedUtxos.filterMap (newUtxo formats parsed))
      | .error error => throw (.blockchainError ("Invalid Address format: " ++ error))))
  cases formats.parseAddress address with
  | error error => exact nofun
  | ok parsed =>
  intro before _ answer after _
  refine ⟨rfl, ?_⟩
  cases answer with
  | error error => exact nofun
  | ok _ =>
  refine always_fetchTxs formats _ ⟨by simp [storedUtxos], fun txid member => ?_⟩
  obtain ⟨utxo, listed, same⟩ := (mem_unfetched.mp member).1
  exact ⟨utxo, by simpa [storedUtxos] using listed, same⟩

/-- A call stores one list, and copies the list only when all transactions of the one
it stored are fetched. -/
theorem always_getWalletBalance (formats : BitcoinFormats) (address : String) :
    Always World (fun _ _ => True) Orderly (fun _ _ _ => True) [] state
      (getWalletBalance formats address).run := by
  refine (always_run_bind _ _).mpr ((always_adapt _ _).mpr ?_)
  refine (always_refreshChainData formats address).post_mono ?_
  intro past result state fetched
  cases result with
  | error error => trivial
  | ok _ =>
      obtain ⟨stored, done⟩ := fetched rfl
      intro before _ answer after _
      refine ⟨⟨stored, ?_⟩, ?_⟩
      · rw [List.eq_nil_iff_forall_not_mem]
        intro txid member
        obtain ⟨utxo, none, _⟩ := done txid member
        cases none
      · cases answer with
        | error error => trivial
        | ok _ =>
            intro before _ answer after _
            refine ⟨trivial, ?_⟩
            cases answer <;> trivial

end Locally

/-! ## Calls that overlap -/

section Overlapping

variable {ι : Type} [DecidableEq ι]

abbrev WalletPool (ι : Type) :=
  Pool ι WalletState ChainRequest ChainRequest.Answer (Except String Nat)

/-- A call copies the list that it stored itself, or one that no other call stored which
has yet to fetch a transaction of it. -/
def Settled (pool : WalletPool ι) (index : ι) (step : ChainStep) : Prop :=
  match step with
  | ⟨before, .copyUtxos, _, _⟩ =>
      storedUtxos (pool index).past = some before.cache.utxos ∨
        ∀ other, other ≠ index →
          storedUtxos (pool other).past = some before.cache.utxos →
            unfetched (pool other).past = []
  | _ => True

/-- No other call is under way. -/
def Alone (pool : WalletPool ι) (index : ι) (_ : ChainStep) : Prop :=
  ∀ other, other ≠ index → (pool other).past = [] ∨ (pool other).Finished

/-- The transaction of the UTXO is in the cache. -/
def Backed (cache : ChainCacheData) (utxo : Utxo) : Prop :=
  (cache.txs utxo.outpoint.txid).isSome

/-- What calls have put into the cache is there, the list is one that a call stored,
and the wallet is backed by the cache. -/
structure Cached (pool : WalletPool ι) (state : WalletState) : Prop where
  inserted : ∀ index, ∀ txid ∈ insertedTxs (pool index).past,
    (state.cache.txs txid).isSome
  origin : state.cache.utxos = [] ∨
    ∃ index, storedUtxos (pool index).past = some state.cache.utxos
  wallet : ∀ utxo ∈ state.wallet.utxos, Backed state.cache utxo

omit [DecidableEq ι] in
theorem cached_initial (address : String)
    (programs : ι → Program ChainRequest ChainRequest.Answer (Except String Nat)) :
    Cached (fun index => Thread.start (programs index)) (.initial address) where
  inserted := by simp [Thread.start, insertedTxs]
  origin := .inl rfl
  wallet := by simp [WalletState.initial, JsInterfaceWallet.new]

variable {pool : WalletPool ι} {index : ι} {before after : WalletState}
  {request : ChainRequest} {answer : request.Answer}
  {program : Program ChainRequest ChainRequest.Answer (Except String Nat)}

theorem insertedTxs_advance (step : ChainStep) (other : ι) :
    insertedTxs ((pool.advance index step program) other).past =
      insertedTxs (pool other).past ++ if other = index then insertedTxs [step] else [] := by
  by_cases same : other = index
  · subst same
    rw [Pool.advance_same, insertedTxs_append, if_pos rfl]
  · rw [Pool.advance_other _ same, if_neg same, List.append_nil]

theorem storedUtxos_advance (step : ChainStep) (other : ι) :
    storedUtxos ((pool.advance index step program) other).past =
      (storedUtxos (pool other).past).or
        (if other = index then storedUtxos [step] else none) := by
  by_cases same : other = index
  · subst same
    rw [Pool.advance_same, storedUtxos_snoc, if_pos rfl]
  · rw [Pool.advance_other _ same, if_neg same, Option.or_none]

/-- What was stored stays stored. -/
theorem stored_advance (step : ChainStep) {other : ι} {utxos : List Utxo}
    (stored : storedUtxos (pool other).past = some utxos) :
    storedUtxos ((pool.advance index step program) other).past = some utxos := by
  rw [storedUtxos_advance, stored, Option.some_or]

/-- A step that leaves the list and the transactions alone, and gives the wallet a list
that is backed. -/
theorem Cached.idle (cached : Cached pool before)
    (sameUtxos : after.cache.utxos = before.cache.utxos)
    (sameTxs : after.cache.txs = before.cache.txs)
    (backed : ∀ utxo ∈ after.wallet.utxos, Backed before.cache utxo)
    (idle : Idle ⟨before, request, answer, after⟩) :
    Cached (pool.advance index ⟨before, request, answer, after⟩ program) after where
  inserted := by
    intro other txid member
    rw [insertedTxs_advance, idle.2, ite_self, List.append_nil] at member
    rw [sameTxs]
    exact cached.inserted other txid member
  origin := by
    rw [sameUtxos]
    refine cached.origin.imp_right ?_
    rintro ⟨other, stored⟩
    exact ⟨other, stored_advance _ stored⟩
  wallet := by
    intro utxo member
    have known := backed utxo member
    unfold Backed at known ⊢
    rwa [sameTxs]

/-- A call that stores its list. -/
theorem Cached.store (cached : Cached pool before) {utxos : List Utxo}
    {answer : Except DlcError Unit} (orderly : storedUtxos (pool index).past = none) :
    Cached (pool.advance index ⟨before, .storeUtxos utxos, answer,
      { before with cache.utxos := utxos }⟩ program) { before with cache.utxos := utxos } where
  inserted := by
    intro other txid member
    rw [insertedTxs_advance] at member
    have none : insertedTxs [⟨before, .storeUtxos utxos, answer,
        { before with cache.utxos := utxos }⟩] = [] :=
      rfl
    rw [none, ite_self, List.append_nil] at member
    exact cached.inserted other txid member
  origin := by
    refine .inr ⟨index, ?_⟩
    rw [storedUtxos_advance, orderly, if_pos rfl]
    rfl
  wallet := cached.wallet

/-- A call that puts a transaction into the cache. -/
theorem Cached.insert (cached : Cached pool before) {txid : String}
    {transaction : Transaction} {answer : Except DlcError Unit} :
    Cached (pool.advance index ⟨before, .insertTx txid transaction, answer,
      { before with cache.txs := Function.update before.cache.txs txid transaction }⟩
      program)
      { before with cache.txs := Function.update before.cache.txs txid transaction } where
  inserted := by
    intro other found member
    rw [insertedTxs_advance] at member
    by_cases same : found = txid
    · simp [same]
    · simp only [Function.update_of_ne same]
      rcases List.mem_append.mp member with member | member
      · exact cached.inserted other found member
      · split_ifs at member
        · exact absurd (List.mem_singleton.mp member) same
        · cases member
  origin := by
    refine cached.origin.imp_right ?_
    rintro ⟨other, stored⟩
    exact ⟨other, stored_advance _ stored⟩
  wallet := by
    intro utxo member
    by_cases same : utxo.outpoint.txid = txid
    · simp [Backed, same]
    · simp only [Backed, Function.update_of_ne same]
      exact cached.wallet utxo member

/-- Whenever a call copies the list, all of the list is backed. -/
theorem Cached.copy (cached : Cached pool before)
    (settled : Settled pool index ⟨before, .copyUtxos, .ok (), after⟩)
    (orderly : Orderly (pool index).past ⟨before, .copyUtxos, .ok (), after⟩) :
    ∀ utxo ∈ before.cache.utxos, Backed before.cache utxo := by
  intro utxo member
  -- a call that stored the list and has fetched all of it
  have fetched {owner : ι} (stored : storedUtxos (pool owner).past = some before.cache.utxos)
      (done : unfetched (pool owner).past = []) : Backed before.cache utxo := by
    refine cached.inserted owner _ ?_
    by_contra missing
    have left : utxo.outpoint.txid ∈ unfetched (pool owner).past :=
      mem_unfetched.mpr ⟨⟨utxo, by simpa [stored] using member, rfl⟩, missing⟩
    rw [done] at left
    cases left
  rcases settled with own | others
  · exact fetched own orderly.2
  rcases cached.origin with none | ⟨owner, stored⟩
  · rw [none] at member
    cases member
  by_cases same : owner = index
  · subst same
    exact fetched stored orderly.2
  · exact fetched stored (others owner same stored)

theorem Cached.step (cached : Cached pool before)
    (served : World before request answer after)
    (settled : Settled pool index ⟨before, request, answer, after⟩)
    (orderly : Orderly (pool index).past ⟨before, request, answer, after⟩) :
    Cached (pool.advance index ⟨before, request, answer, after⟩ program) after := by
  cases request with
  | getHeight =>
      obtain rfl := served
      exact cached.idle rfl rfl cached.wallet ⟨rfl, rfl⟩
  | getAddressUtxo address =>
      obtain rfl := served
      exact cached.idle rfl rfl cached.wallet ⟨rfl, rfl⟩
  | getRawTx txid =>
      obtain rfl := served
      exact cached.idle rfl rfl cached.wallet ⟨rfl, rfl⟩
  | setHeight height =>
      obtain ⟨rfl, rfl⟩ := served
      exact cached.idle rfl rfl cached.wallet ⟨rfl, rfl⟩
  | storeUtxos utxos =>
      obtain ⟨rfl, rfl⟩ := served
      exact cached.store orderly
  | insertTx txid transaction =>
      obtain ⟨rfl, rfl⟩ := served
      exact cached.insert
  | copyUtxos =>
      obtain ⟨rfl, rfl⟩ := served
      exact cached.idle rfl rfl (cached.copy settled orderly) ⟨rfl, rfl⟩
  | getUtxos =>
      obtain ⟨rfl, rfl⟩ := served
      exact cached.idle rfl rfl cached.wallet ⟨rfl, rfl⟩

omit [DecidableEq ι] in
/-- The transactions of what the wallet lists are found. -/
theorem Cached.getTransaction (cached : Cached pool before) :
    ∀ utxo ∈ before.wallet.utxos, ∃ transaction,
      getTransaction before.cache utxo.outpoint.txid = .ok transaction := by
  intro utxo member
  obtain ⟨transaction, found⟩ := Option.isSome_iff_exists.mp (cached.wallet utxo member)
  exact ⟨transaction, by rw [EsploraProvider.getTransaction, found]⟩

/-- Along every interleaving of refreshes, with any HTTP requests failing, in which no
call copies a list that another call has yet to fetch transactions of, the
transaction of every UTXO of the wallet is found. -/
theorem interleaved_getTransaction (formats : BitcoinFormats) (address : String)
    {trace : List (ι × ChainStep)} {pool : WalletPool ι} {final : WalletState}
    (run : Interleaved World Settled
      (fun _ => Thread.start (getWalletBalance formats address).run) (.initial address)
      trace pool final) :
    ∀ utxo ∈ final.wallet.utxos,
      ∃ transaction, getTransaction final.cache utxo.outpoint.txid = .ok transaction := by
  have cached : Cached pool final :=
    run.invariant Cached (fun _ _ => always_getWalletBalance formats address)
      (cached_initial address _)
      (fun _ _ _ _ cached _ served settled orderly _ =>
        cached.step served settled orderly)
  exact cached.getTransaction

/-! ## Calls that do not overlap -/

/-- The list is the one that the call which is under way stored. -/
def StoredLast (pool : WalletPool ι) (state : WalletState) : Prop :=
  ∀ index, ¬ (pool index).Finished → ∀ utxos,
    storedUtxos (pool index).past = some utxos → state.cache.utxos = utxos

omit [DecidableEq ι] in
/-- A call that is alone copies the list that it stored itself. -/
theorem StoredLast.settled (last : StoredLast pool before)
    (running : ¬ (pool index).Finished)
    (orderly : Orderly (pool index).past ⟨before, request, answer, after⟩) :
    Settled pool index ⟨before, request, answer, after⟩ := by
  cases request with
  | copyUtxos =>
      obtain ⟨utxos, stored⟩ := Option.ne_none_iff_exists'.mp orderly.1
      exact .inl (stored.trans (congrArg some (last index running utxos stored).symm))
  | _ => trivial

/-- A step of a call that is alone. -/
theorem StoredLast.step (last : StoredLast pool before)
    (served : World before request answer after)
    (alone : Alone pool index ⟨before, request, answer, after⟩)
    (running : ¬ (pool index).Finished)
    (orderly : Orderly (pool index).past ⟨before, request, answer, after⟩) :
    StoredLast (pool.advance index ⟨before, request, answer, after⟩ program) after := by
  intro other unfinished utxos stored
  by_cases same : other = index
  · subst same
    rw [storedUtxos_advance, if_pos rfl] at stored
    -- only storing a list changes it
    cases request with
    | storeUtxos utxos' =>
        obtain ⟨rfl, rfl⟩ := served
        rw [orderly, Option.none_or] at stored
        exact Option.some.inj stored
    | getHeight | getAddressUtxo _ | getRawTx _ =>
        obtain rfl := served
        exact last other running utxos (by simpa [storedUtxos] using stored)
    | setHeight _ | insertTx _ _ | copyUtxos | getUtxos =>
        obtain ⟨rfl, rfl⟩ := served
        exact last other running utxos (by simpa [storedUtxos] using stored)
  · rw [Pool.advance_other _ same] at unfinished stored
    rcases alone other same with none | finished
    · rw [none] at stored
      cases stored
    · exact absurd finished unfinished

/-- When calls do not overlap, the transaction of every UTXO of the wallet is found,
whatever requests fail. -/
theorem alone_getTransaction (formats : BitcoinFormats) (address : String)
    {trace : List (ι × ChainStep)} {pool : WalletPool ι} {final : WalletState}
    (run : Interleaved World Alone
      (fun _ => Thread.start (getWalletBalance formats address).run) (.initial address)
      trace pool final) :
    ∀ utxo ∈ final.wallet.utxos,
      ∃ transaction, getTransaction final.cache utxo.outpoint.txid = .ok transaction := by
  have holds : Cached pool final ∧ StoredLast pool final := by
    refine run.invariant (fun pool state => Cached pool state ∧ StoredLast pool state)
      (fun _ _ => always_getWalletBalance formats address)
      ⟨cached_initial address _, ?_⟩ ?_
    · rintro index _ utxos ⟨⟩
    · rintro current index step program ⟨cached, last⟩ _ served alone orderly running
      exact ⟨cached.step served (last.settled running orderly) orderly,
        last.step served alone running orderly⟩
  exact holds.1.getTransaction

end Overlapping

/-- An Esplora that answers everything, where the address has a second UTXO once the
first was listed. -/
def serve : Responder WalletState ChainRequest ChainRequest.Answer :=
  fun before request =>
    match request with
    | .getHeight => (.ok 1, before)
    | .getAddressUtxo _ =>
        (.ok (if before.cache.utxos = [] then [⟨"a", 0, 1⟩] else [⟨"a", 0, 1⟩, ⟨"b", 0, 1⟩]),
          before)
    | .getRawTx _ => (.ok [], before)
    | .setHeight height => (.ok (), { before with cache.height := height })
    | .storeUtxos utxos => (.ok (), { before with cache.utxos := utxos })
    | .insertTx txid transaction =>
        (.ok (), { before with
          cache.txs := Function.update before.cache.txs txid transaction })
    | .copyUtxos =>
        (.ok (), { before with wallet := before.wallet.setUtxos before.cache.utxos })
    | .getUtxos => (.ok before.cache.utxos, before)

theorem world_serve (before : WalletState) (request : ChainRequest) :
    World before request (serve before request).1 (serve before request).2 := by
  cases request with
  | getHeight => exact rfl
  | getAddressUtxo address => exact rfl
  | getRawTx txid => exact rfl
  | _ => exact ⟨rfl, rfl⟩

def sampleFormats : BitcoinFormats :=
  ⟨.ok, .ok, fun _ => "script", fun _ => .ok ⟨"transaction", 0⟩⟩

/-- Two refreshes. -/
def samplePool : WalletPool (Fin 2) :=
  fun _ => Thread.start (getWalletBalance sampleFormats "address").run

/-- The second call runs while the first has stored its list. -/
def sampleSchedule : List (Fin 2) :=
  [0, 0, 0, 0, 1, 1, 1, 1, 1, 1, 1, 1, 1, 0, 0, 0]

/-- The second UTXO as the wallet lists it. -/
def sampleUtxo : Utxo :=
  ⟨⟨"b", 0⟩, ⟨1, "script"⟩, "address", "", false⟩

theorem interleaved_getTransaction_sampleSchedule :
    sampleUtxo ∈
        (samplePool.schedule serve sampleSchedule (.initial "address")).2.wallet.utxos ∧
      ∃ transaction, getTransaction
        (samplePool.schedule serve sampleSchedule (.initial "address")).2.cache "b" =
          .ok transaction := by
  have settled : samplePool.MetAlong serve Settled sampleSchedule (.initial "address") :=
    ⟨trivial, trivial, trivial, trivial, trivial, trivial, trivial, trivial, trivial,
      trivial, trivial, trivial, .inl (by decide), trivial, trivial,
      .inr fun other => by revert other; decide, trivial⟩
  have listed : sampleUtxo ∈
      (samplePool.schedule serve sampleSchedule (.initial "address")).2.wallet.utxos := by
    decide
  exact ⟨listed, interleaved_getTransaction sampleFormats "address"
    (interleaved_schedule serve world_serve sampleSchedule settled .idle) sampleUtxo listed⟩

/-- A call that ends while another has just stored a longer list gives the wallet a UTXO
whose transaction is not found. -/
theorem interleaved_tx_not_found :
    ∃ trace pool final,
      Interleaved World AnyStep samplePool (.initial "address") trace pool final ∧
      ∃ utxo ∈ final.wallet.utxos,
        getTransaction final.cache utxo.outpoint.txid =
          .error (.blockchainError "tx not found b") :=
  ⟨_, _, _, interleaved_schedule serve world_serve [0, 0, 0, 0, 1, 1, 1, 1, 0, 0, 0]
    (metAlong_anyStep ..) .idle, sampleUtxo, by decide, rfl⟩

end EsploraProvider

end DlcStack
