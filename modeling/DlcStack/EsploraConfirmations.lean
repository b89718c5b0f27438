import DlcStack.EffectProjection
import DlcStack.ManagerPeriodicCheck

/-!
# Confirmations by the Esplora server

The providers count the confirmations of a transaction from two answers of the
server, the status of the transaction and the height of the chain, which need not
belong together.  The arithmetic is that of a release build, where a subtraction
wraps around.
-/

namespace DlcStack

namespace LinkManager

open Program hiding ask

/-- What is used of `TxStatus`. -/
structure TxStatus where
  confirmed : Bool
  blockHeight : Option UInt32
  deriving DecidableEq, Repr

inductive EsploraRequest where
  /-- `get_from_json::<TxStatus>` -/
  | getStatus (txid : Txid)
  | getHeight
  -- what is not asked of the blockchain provider
  | other (request : WalletRequest)

namespace EsploraRequest

/-- The error of `get_height` is the text it is printed as. -/
abbrev Answer : EsploraRequest → Type
  | getStatus _ => Except DlcError TxStatus
  | getHeight => Except String UInt32
  | other request => request.Answer

end EsploraRequest

abbrev EsploraStep := Step ContractStore EsploraRequest EsploraRequest.Answer

/-- The server answers as it likes. -/
def EsploraWorld (repliesLost : Prop) :
    Environment ContractStore EsploraRequest EsploraRequest.Answer
  | before, .other request, answer, after => World repliesLost before request answer after
  | before, _, _, after => after = before

abbrev EsploraM := ExceptT DlcError (Program EsploraRequest EsploraRequest.Answer)

def getStatus (txid : Txid) : EsploraM TxStatus :=
  ExceptT.mk (perform (EsploraRequest.getStatus txid))

def getHeight : ExceptT String (Program EsploraRequest EsploraRequest.Answer) UInt32 :=
  ExceptT.mk (perform EsploraRequest.getHeight)

/-- `(block_chain_height - block_height as u64 + 1) as u32` -/
def confirmationsAt (blockChainHeight blockHeight : UInt32) : UInt32 :=
  (blockChainHeight.toUInt64 - blockHeight.toUInt64 + 1).toUInt32

/-- `get_transaction_confirmations_async`, with the text of a missing height. -/
def countConfirmations (heightError : String → String) (txid : Txid) :
    EsploraM UInt32 := do
  let txStatus ← getStatus txid
  if txStatus.confirmed then
    let blockChainHeight ←
      ExceptT.adapt (fun error => .blockchainError (heightError error)) getHeight
    match txStatus.blockHeight with
    | some blockHeight => return confirmationsAt blockChainHeight blockHeight
    | none => return 0
  else
    return 0

/-- The two copies of the provider. -/
inductive EsploraAsyncBlockchainProvider where
  | routerWallet
  | jsWallet

namespace EsploraAsyncBlockchainProvider

/-- `get_transaction_confirmations_async` -/
def getTransactionConfirmationsAsync : EsploraAsyncBlockchainProvider → Txid → EsploraM UInt32
  | routerWallet => countConfirmations fun error => error
  | jsWallet => countConfirmations fun error =>
      "Error getting blockchain height: " ++ error

/-- A request of the manager whose blockchain is the provider. -/
def carryOut (provider : EsploraAsyncBlockchainProvider) :
    (request : WalletRequest) →
      Program EsploraRequest EsploraRequest.Answer request.Answer
  | .getTransactionConfirmations txid => do
      let confirmations ← (provider.getTransactionConfirmationsAsync txid).run
      return confirmations.map UInt32.toNat
  | request => perform (EsploraRequest.other request)

end EsploraAsyncBlockchainProvider

/-! ## What the server told -/

def toldStatus? : EsploraStep → Option TxStatus
  | ⟨_, .getStatus _, .ok status, _⟩ => some status
  | _ => none

def toldHeight? : EsploraStep → Option UInt32
  | ⟨_, .getHeight, .ok height, _⟩ => some height
  | _ => none

/-- The server told of a block of the transaction and of a tip of the chain. -/
def Told (steps : List EsploraStep) (tip block : UInt32) : Prop :=
  ∃ status ∈ steps.filterMap toldStatus?,
    status.confirmed = true ∧ status.blockHeight = some block ∧
      tip ∈ steps.filterMap toldHeight?

/-- The subtraction, the addition and the cast each give the number they stand for. -/
def ComputesExactly (tip block : UInt32) : Prop :=
  ((tip.toUInt64 - block.toUInt64).toNat : Int) = (tip.toNat : Int) - block.toNat ∧
    (tip.toUInt64 - block.toUInt64 + 1).toNat =
      (tip.toUInt64 - block.toUInt64).toNat + 1 ∧
    (confirmationsAt tip block).toNat = (tip.toUInt64 - block.toUInt64 + 1).toNat

/-- What a count of confirmations promises. -/
structure Counts (steps : List EsploraStep) (result : Except DlcError UInt32) : Prop where
  unconfirmed : ∀ status ∈ steps.filterMap toldStatus?,
    status.confirmed = false → result = .ok 0
  exact : ∀ tip block, Told steps tip block → ComputesExactly tip block
  confirmed : ∀ tip block, Told steps tip block → block ≤ tip →
    ∃ confirmations, result = .ok confirmations ∧
      confirmations.toNat = tip.toNat - block.toNat + 1
  buried : ∀ tip block, Told steps tip block → tip.toNat < block.toNat + 5 →
    ∀ confirmations, result = .ok confirmations → confirmations < 6

/-- A contract is stored as confirmed only when the tip is five blocks above the block
of its transaction. -/
def ConfirmsBuried (steps : List EsploraStep) : Prop :=
  ∀ step ∈ steps, ∀ contract, step.request = .other (.updateContract (.confirmed contract)) →
    ∃ tip block, Told steps tip block ∧ block.toNat + 5 ≤ tip.toNat

/-- The tip is not below the block, and their distance can be counted. -/
def Consistent (steps : List EsploraStep) : Prop :=
  ∀ tip block, Told steps tip block →
    block ≤ tip ∧ tip.toNat - block.toNat + 1 < UInt32.size

/-! ## The arithmetic -/

theorem computesExactly_iff (tip block : UInt32) :
    ComputesExactly tip block ↔
      block ≤ tip ∧ tip.toNat - block.toNat + 1 < UInt32.size := by
  have tipBound := tip.toNat_lt
  have blockBound := block.toNat_lt
  unfold ComputesExactly confirmationsAt UInt32.size
  rw [UInt32.le_iff_toNat_le]
  simp only [UInt64.toNat_add, UInt64.toNat_sub, UInt32.toNat_toUInt64, UInt64.toNat_one,
    UInt64.toNat_toUInt32]
  omega

theorem confirmationsAt_toNat {tip block : UInt32} (exact : ComputesExactly tip block) :
    (confirmationsAt tip block).toNat = tip.toNat - block.toNat + 1 := by
  obtain ⟨difference, sum, cast⟩ := exact
  omega

/-! ## The runs -/

/-- What a count of confirmations can be told, and what it then returns. -/
theorem countConfirmations_cases {repliesLost : Prop} {heightError : String → String}
    {txid : Txid} {start final : ContractStore} {steps : List EsploraStep}
    {result : Except DlcError UInt32}
    (run : Runs (EsploraWorld repliesLost) (countConfirmations heightError txid).run start
      steps result final) :
    (steps.filterMap toldStatus? = [] ∧ ∃ error, result = .error error) ∨
    ∃ status, steps.filterMap toldStatus? = [status] ∧
      (status.confirmed = false ∧ result = .ok 0 ∨
        status.confirmed = true ∧
          ((steps.filterMap toldHeight? = [] ∧ ∃ error, result = .error error) ∨
            ∃ tip, steps.filterMap toldHeight? = [tip] ∧
              result = .ok ((status.blockHeight.map (confirmationsAt tip)).getD 0))) := by
  obtain ⟨answer, middle, rest, served, rfl, run⟩ := run
  cases answer with
  | error error =>
      obtain ⟨rfl, rfl, -⟩ := run
      exact .inl ⟨rfl, error, rfl⟩
  | ok status =>
      refine .inr ⟨status, ?_⟩
      change Runs _ (ExceptT.run (if status.confirmed = true then _ else _)) _ _ _ _ at run
      split_ifs at run with confirmed
      · obtain ⟨answer, later, rest, served, rfl, run⟩ := run
        cases answer with
        | error error =>
            obtain ⟨rfl, rfl, -⟩ := run
            exact ⟨rfl, .inr ⟨confirmed, .inl ⟨rfl, _, rfl⟩⟩⟩
        | ok tip =>
            cases block : status.blockHeight with
            | none =>
                simp only [block] at run
                obtain ⟨rfl, rfl, -⟩ := run
                exact ⟨rfl, .inr ⟨confirmed, .inr ⟨tip, rfl, rfl⟩⟩⟩
            | some block =>
                simp only [block] at run
                obtain ⟨rfl, rfl, -⟩ := run
                exact ⟨rfl, .inr ⟨confirmed, .inr ⟨tip, rfl, rfl⟩⟩⟩
      · obtain ⟨rfl, rfl, -⟩ := run
        exact ⟨rfl, .inl ⟨by simpa using confirmed, rfl⟩⟩

/-- A count asks the server only. -/
private theorem asks_countConfirmations (heightError : String → String) (txid : Txid) :
    Asks (fun request => ∀ other, request ≠ .other other)
      (countConfirmations heightError txid).run := by
  unfold countConfirmations
  refine asks_run_bind (asks_perform (by simp)) fun status => ?_
  split_ifs
  · refine asks_run_bind (asks_adapt (asks_perform (by simp))) fun height => ?_
    cases status.blockHeight <;> exact asks_pure _
  · exact asks_pure _

/-- A count keeps its promise exactly if the server's answers are in order. -/
private theorem counts_iff_consistent {repliesLost : Prop} {heightError : String → String}
    {txid : Txid} {start final : ContractStore} {steps : List EsploraStep}
    {result : Except DlcError UInt32}
    (run : Runs (EsploraWorld repliesLost) (countConfirmations heightError txid).run start
      steps result final) :
    Counts steps result ↔ Consistent steps := by
  constructor
  · intro counts tip block told
    exact (computesExactly_iff tip block).mp (counts.exact tip block told)
  · intro consistent
    have exact tip block (told : Told steps tip block) : ComputesExactly tip block :=
      (computesExactly_iff tip block).mpr (consistent tip block told)
    have returned tip block (told : Told steps tip block) :
        result = .ok (confirmationsAt tip block) := by
      obtain ⟨status, statusTold, confirmed, height, tipTold⟩ := told
      obtain ⟨none, -⟩ | ⟨other, one, ⟨unconfirmed, -⟩ | ⟨-, ⟨none, -⟩ | ⟨told, one', same⟩⟩⟩ :=
        countConfirmations_cases run
      · simp [none] at statusTold
      · rw [one, List.mem_singleton] at statusTold
        simp [statusTold, unconfirmed] at confirmed
      · simp [none] at tipTold
      · rw [one, List.mem_singleton] at statusTold
        rw [one', List.mem_singleton] at tipTold
        rw [same, ← statusTold, ← tipTold, height]
        rfl
    refine ⟨?_, exact, fun tip block told below => ?_, fun tip block told near => ?_⟩
    · intro status told unconfirmed
      obtain ⟨none, -⟩ | ⟨other, one, ⟨-, same⟩ | ⟨confirmed, -⟩⟩ :=
        countConfirmations_cases run
      · simp [none] at told
      · exact same
      · rw [one, List.mem_singleton] at told
        simp [← told, unconfirmed] at confirmed
    · exact ⟨_, returned tip block told, confirmationsAt_toNat (exact tip block told)⟩
    · rintro confirmations isCount
      have count := confirmationsAt_toNat (exact tip block told)
      rw [returned tip block told] at isCount
      obtain rfl := Except.ok.inj isCount
      have ordered := UInt32.le_iff_toNat_le.mp (consistent tip block told).1
      rw [UInt32.lt_iff_toNat_lt, count]
      change _ < 6
      omega

/-- Six confirmations are counted only when the tip is five blocks above. -/
private theorem told_of_six {repliesLost : Prop} {heightError : String → String}
    {txid : Txid} {start final : ContractStore} {steps : List EsploraStep}
    {confirmations : UInt32}
    (run : Runs (EsploraWorld repliesLost) (countConfirmations heightError txid).run start
      steps (.ok confirmations) final)
    (consistent : Consistent steps) (six : 6 ≤ confirmations.toNat) :
    ∃ tip block, Told steps tip block ∧ block.toNat + 5 ≤ tip.toNat := by
  obtain ⟨-, _, ⟨⟩⟩ | ⟨status, one, ⟨-, same⟩ | ⟨confirmed, ⟨-, _, ⟨⟩⟩ | ⟨tip, one', same⟩⟩⟩ :=
    countConfirmations_cases run
  · obtain rfl := Except.ok.inj same
    exact absurd six (by decide)
  · cases height : status.blockHeight with
    | none =>
        rw [height] at same
        obtain rfl := Except.ok.inj same
        change 6 ≤ 0 at six
        omega
    | some block =>
        rw [height] at same
        obtain rfl := Except.ok.inj same
        have told : Told steps tip block :=
          ⟨status, by simp [one], confirmed, height, by simp [one']⟩
        have count := confirmationsAt_toNat
          ((computesExactly_iff tip block).mpr (consistent tip block told))
        refine ⟨tip, block, told, ?_⟩
        change 6 ≤ (confirmationsAt tip block).toNat at six
        omega

theorem Told.append {front back : List EsploraStep} {tip block : UInt32}
    (told : Told front tip block) : Told (front ++ back) tip block := by
  obtain ⟨status, statusTold, confirmed, height, tipTold⟩ := told
  refine ⟨status, ?_, confirmed, height, ?_⟩
  · rw [List.filterMap_append]
    exact List.mem_append_left _ statusTold
  · rw [List.filterMap_append]
    exact List.mem_append_left _ tipTold

/-- Every count is exact, and `check_signed_contract` confirms contracts only under six
blocks, if the tip that the server tells of is not below the block of the transaction;
otherwise the count is wrong. -/
theorem confirmations_iff_consistent (provider : EsploraAsyncBlockchainProvider)
    (repliesLost : Prop) :
    (∀ txid start steps result final,
      Runs (EsploraWorld repliesLost) (provider.getTransactionConfirmationsAsync txid).run
        start steps result final → (Counts steps result ↔ Consistent steps)) ∧
    ∀ contract start steps result final,
      Runs (EsploraWorld repliesLost)
        ((checkSignedContract contract).run.expand provider.carryOut)
        start steps result final → Consistent steps → ConfirmsBuried steps := by
  have counts : ∃ heightError, ∀ txid,
      provider.getTransactionConfirmationsAsync txid = countConfirmations heightError txid := by
    cases provider with
    | routerWallet => exact ⟨_, fun _ => rfl⟩
    | jsWallet => exact ⟨_, fun _ => rfl⟩
  obtain ⟨heightError, counts⟩ := counts
  constructor
  · intro txid start steps result final run
    rw [counts] at run
    exact counts_iff_consistent run
  · intro contract start steps result final run consistent
    obtain ⟨answer, middle, front, back, asked, run, rfl⟩ :=
      (runs_expand_ask provider.carryOut _ _).mp run
    obtain ⟨counted, later, asking, none, count, ⟨rfl, rfl, rfl⟩, rfl⟩ :=
      (runs_bind _ _).mp asked
    rw [counts] at count
    rw [List.append_nil] at consistent ⊢
    have inFront : Consistent asking := fun tip block told => consistent tip block told.append
    have quiet := (asks_countConfirmations heightError _).of_runs count
    intro step member confirmed requested
    rcases List.mem_append.mp member with member | member
    · exact absurd requested (quiet step member _)
    cases counted with
    | error error =>
        obtain ⟨rfl, -, -⟩ := run
        cases member
    | ok confirmations =>
        by_cases six : 6 ≤ confirmations.toNat
        · obtain ⟨tip, block, told, buried⟩ := told_of_six count inFront six
          exact ⟨tip, block, told.append, buried⟩
        · change Runs _ (Program.expand _ (ExceptT.run
            (if 6 ≤ confirmations.toNat then _ else _))) _ _ _ _ at run
          rw [if_neg six] at run
          obtain ⟨rfl, -, -⟩ := run
          cases member

/-! ## A server behind its own status -/

/-- A server that tells of a block and of a tip, and a store that works. -/
def serveEsplora (tip block : UInt32) :
    Responder ContractStore EsploraRequest EsploraRequest.Answer :=
  fun store request =>
    match request with
    | .getStatus _ => (.ok ⟨true, some block⟩, store)
    | .getHeight => (.ok tip, store)
    | .other request => serve (sampleOthers (fun _ => 0) false 0 fun _ => false) store request

theorem esploraWorld_serveEsplora (repliesLost : Prop) (tip block : UInt32)
    (store : ContractStore) (request : EsploraRequest) :
    EsploraWorld repliesLost store request (serveEsplora tip block store request).1
      (serveEsplora tip block store request).2 := by
  cases request with
  | other request => exact world_serve repliesLost _ store request
  | _ => rfl

/-- A check of a signed contract, counting at a tip and a block. -/
def sampleCheck (tip block : UInt32) :
    List EsploraStep × Except DlcError Bool × ContractStore :=
  let contract := sampleSigned (Vector.replicate 32 0) (Vector.replicate 32 1)
  eval (serveEsplora tip block)
    ((checkSignedContract contract).run.expand
      EsploraAsyncBlockchainProvider.routerWallet.carryOut)
    (sampleStore (.signed contract))

theorem runs_sampleCheck (repliesLost : Prop) (tip block : UInt32) :
    Runs (EsploraWorld repliesLost)
      ((checkSignedContract (sampleSigned (Vector.replicate 32 0)
        (Vector.replicate 32 1))).run.expand
          EsploraAsyncBlockchainProvider.routerWallet.carryOut)
      (sampleStore (.signed (sampleSigned (Vector.replicate 32 0)
        (Vector.replicate 32 1))))
      (sampleCheck tip block).1 (sampleCheck tip block).2.1 (sampleCheck tip block).2.2 :=
  runs_eval _ (esploraWorld_serveEsplora repliesLost tip block) _ _

/-- The only tip and block that the check is told of. -/
theorem told_sampleCheck {tip block : UInt32}
    (told : Told (sampleCheck 100 102).1 tip block) : tip = 100 ∧ block = 102 := by
  have statuses : (sampleCheck 100 102).1.filterMap toldStatus? = [⟨true, some 102⟩] := by
    decide +kernel
  have tips : (sampleCheck 100 102).1.filterMap toldHeight? = [100] := by
    decide +kernel
  obtain ⟨status, member, -, height, tipTold⟩ := told
  rw [statuses, List.mem_singleton] at member
  rw [tips, List.mem_singleton] at tipTold
  rw [member] at height
  exact ⟨tipTold, (Option.some.inj height).symm⟩

/-- With the tip five blocks above, the contract is confirmed. -/
theorem confirmations_iff_consistent_buried :
    ConfirmsBuried (sampleCheck 100 95).1 ∧ (sampleCheck 100 95).2.1.toOption = some true := by
  refine ⟨(confirmations_iff_consistent .routerWallet False).2 _ _ _ _ _
    (runs_sampleCheck False 100 95) ?_, by decide +kernel⟩
  have statuses : (sampleCheck 100 95).1.filterMap toldStatus? = [⟨true, some 95⟩] := by
    decide +kernel
  have tips : (sampleCheck 100 95).1.filterMap toldHeight? = [100] := by
    decide +kernel
  rintro tip block ⟨status, member, -, height, tipTold⟩
  rw [statuses, List.mem_singleton] at member
  rw [tips, List.mem_singleton] at tipTold
  rw [member] at height
  obtain rfl := Option.some.inj height
  subst tipTold
  decide

/-- A contract is confirmed at a tip below the block of its transaction. -/
theorem not_confirmations_buried :
    ¬ ∀ (provider : EsploraAsyncBlockchainProvider) (repliesLost : Prop),
      (∀ txid start steps result final,
        Runs (EsploraWorld repliesLost) (provider.getTransactionConfirmationsAsync txid).run
          start steps result final → Counts steps result) ∧
      ∀ contract start steps result final,
        Runs (EsploraWorld repliesLost)
          ((checkSignedContract contract).run.expand provider.carryOut)
          start steps result final → ConfirmsBuried steps := by
  intro claimed
  have buried := (claimed .routerWallet False).2 _ _ _ _ _ (runs_sampleCheck False 100 102)
  obtain ⟨tip, block, told, above⟩ := buried _
    (List.mem_of_getElem? (rfl : (sampleCheck 100 102).1[2]? = some _)) _ rfl
  obtain ⟨rfl, rfl⟩ := told_sampleCheck told
  exact absurd above (by decide)

end LinkManager

end DlcStack
