import DlcStack.ProtocolWrites

/-!
# Funded together

A contract between the router wallet and a browser wallet is funded only while the
router wallet holds it as signed.  The browser wallet hands the funding transaction
over after it has verified the signatures of the router wallet, which leave the router
wallet after it has stored the contract; and no call of the router wallet takes a
contract back that it has stored as signed, whatever runs at the same time.
-/

namespace DlcStack

/-- The record is of the signed contract with these transactions, or of what became of
it.  A closed contract does not keep its transactions. -/
def DlcContract.IsSignedFor (transactions : DlcTransactions) : DlcContract → Prop
  | .signed contract => contract.acceptedContract.dlcTransactions = transactions
  | .confirmed contract => contract.acceptedContract.dlcTransactions = transactions
  | .preClosed contract =>
      contract.signedContract.acceptedContract.dlcTransactions = transactions
  | .refunded contract => contract.acceptedContract.dlcTransactions = transactions
  | .closed _ => True
  | _ => False

namespace Protocol

open Program hiding ask
open JsDlcInterface (TornWorld)
open LinkManager

/-! ## What all calls do -/

/-- What a call of a party writes and hands over. -/
def Acts {β : Type} (funding : Funding) (deployment : Deployment β) (party : Party β)
    (past : List WalletStep) (step : WalletStep) : Prop :=
  match party with
  | .router => RouterActs funding deployment.wallet.manager past step
  | .browser wallet => BrowserActs funding (deployment.managers wallet) past step

/-- Only the router wallet returns a sign message, for a contract that it has stored. -/
def Returns {β : Type} (party : Party β) (past : List WalletStep) (returned : Returned) :
    Prop :=
  ∀ message, returned = .router (.ok (.signed message)) →
    party = .router ∧ SignsStored past message

section Calls

variable {ι β : Type} {funding : Funding} {deployment : Deployment β}

theorem always_call (call : Call β) (store : ContractStore) :
    Always funding.Surroundings (fun _ _ => True) (Acts funding deployment call.party)
      (fun past returned _ => Returns call.party past returned) [] store
      (call.run deployment) := by
  cases call with
  | router call =>
      simp only [Call.run]
      cases runs : call.run deployment.library deployment.wallet deployment.activeNetwork with
      | none => exact fun _ => nofun
      | some program =>
          dsimp only
          rw [map_eq_pure_bind]
          refine (always_bind _ _).mpr ((always_router call runs).post_mono ?_)
          rintro past result store signs message ⟨⟩
          exact ⟨rfl, signs message rfl⟩
  | browser wallet call =>
      simp only [Call.run, map_eq_pure_bind]
      exact (always_bind _ _).mpr ((always_browser call).post_mono fun _ _ _ _ _ => nofun)

end Calls

/-! ## Records that were read and written -/

/-- The answer of the step tells a record. -/
inductive Tells : WalletStep → DlcContract → Prop
  | got {before after : ContractStore} {id : ContractId} {contract : DlcContract} :
      Tells ⟨before, .getContract id, .ok (some contract), after⟩ contract
  | signed {before after : ContractStore} {contracts : List SignedContract}
      {contract : SignedContract} (member : contract ∈ contracts) :
      Tells ⟨before, .getSignedContracts, .ok contracts, after⟩ (.signed contract)
  | confirmed {before after : ContractStore} {contracts : List SignedContract}
      {contract : SignedContract} (member : contract ∈ contracts) :
      Tells ⟨before, .getConfirmedContracts, .ok contracts, after⟩ (.confirmed contract)
  | preClosed {before after : ContractStore} {contracts : List PreClosedContract}
      {contract : PreClosedContract} (member : contract ∈ contracts) :
      Tells ⟨before, .getPreclosedContracts, .ok contracts, after⟩ (.preClosed contract)

theorem ReadAs.tells {steps : List WalletStep} {contract : DlcContract}
    (read : ReadAs steps contract) : ∃ step ∈ steps, Tells step contract := by
  cases read with
  | signed reported member =>
      obtain ⟨before, after, taken⟩ := reported
      exact ⟨_, taken, .signed member⟩
  | confirmed reported member =>
      obtain ⟨before, after, taken⟩ := reported
      exact ⟨_, taken, .confirmed member⟩
  | preClosed reported member =>
      obtain ⟨before, after, taken⟩ := reported
      exact ⟨_, taken, .preClosed member⟩

theorem Seen.tells {steps : List WalletStep} {contract : DlcContract}
    (seen : Seen steps contract) : ∃ step ∈ steps, Tells step contract := by
  cases seen with
  | got reported =>
      obtain ⟨before, after, taken⟩ := reported
      exact ⟨_, taken, .got⟩
  | listed read => exact ReadAs.tells read

/-- A record that is told is stored. -/
theorem stored_of_tells {step : WalletStep} {contract : DlcContract}
    (tells : Tells step contract)
    (served : TornWorld step.before step.request step.answer step.after) :
    step.before.find? contract.getId = some contract := by
  have listed {γ : Type} {store : ContractStore} {variant? : DlcContract → Option γ}
      {variant : γ → DlcContract}
      (inverse : ∀ contract value, variant? contract = some value → contract = variant value)
      {contracts : List γ} (lists : ContractStore.Lists store variant? contracts)
      {value : γ} (member : value ∈ contracts) :
      store.find? (variant value).getId = some (variant value) :=
    (stored_of_lists inverse lists (List.Sublist.refl _)).1 value member
  cases tells with
  | got =>
      have found := ((served.world (by simp)).2 _ rfl).symm
      rw [(UniqueTable.find?_eq_some_iff.mp found).2]
      exact found
  | signed member =>
      exact listed (by rintro (_ | _ | _ | _ | _ | _ | _ | _ | _ | _) _ ⟨⟩; rfl)
        ((served.world (by simp)).2 _ rfl) member
  | confirmed member =>
      exact listed (by rintro (_ | _ | _ | _ | _ | _ | _ | _ | _ | _) _ ⟨⟩; rfl)
        ((served.world (by simp)).2 _ rfl) member
  | preClosed member =>
      exact listed (by rintro (_ | _ | _ | _ | _ | _ | _ | _ | _ | _) _ ⟨⟩; rfl)
        ((served.world (by simp)).2 _ rfl) member

/-- A stored record was stored before, or has just been written. -/
theorem stored_of_written {before after : ContractStore} {request : WalletRequest}
    {answer : request.Answer} (served : TornWorld before request answer after)
    {contract : DlcContract} (stored : after.find? contract.getId = some contract) :
    before.find? contract.getId = some contract ∨
      (∃ offered, request = .createContract offered ∧ contract = .offered offered) ∨
      request = .updateContract contract := by
  cases request with
  | createContract offered =>
      rcases served.find?_create contract.getId with same | ⟨-, created⟩
      · exact .inl (same.symm.trans stored)
      · exact .inr (.inl ⟨offered, rfl, Option.some.inj (stored.symm.trans created)⟩)
  | updateContract target =>
      rcases served.find?_update contract.getId with same | ⟨-, updated⟩ | ⟨-, -, erased⟩
      · exact .inl (same.symm.trans stored)
      · exact .inr (.inr (congrArg _ (Option.some.inj (updated.symm.trans stored))))
      · cases erased.symm.trans stored
  | _ =>
      obtain rfl := served.unchanged rfl
      exact .inl stored

/-! ## The records of a party -/

section Sound

variable {ι β : Type} {funding : Funding} {pool : Calls ι β} {party : Party β}

/-- What is known of a record of a party: offers of the router wallet are numbered by
drawing and its contracts by their transactions, and what a funded contract is funded
with has been handed over. -/
structure Sound (funding : Funding) (pool : Calls ι β) (party : Party β)
    (contract : DlcContract) : Prop where
  drawn : party = .router → ∀ offered, contract = .offered offered →
    funding.transactions offered.id = none
  numbered : party = .router → ∀ accepted, contract.acceptedPart? = some accepted →
    funding.Numbers accepted
  funded : contract.isFunded = true → ∀ accepted, contract.acceptedPart? = some accepted →
    funding.Ours accepted.dlcTransactions.fund.txid →
      Funding.HandedOver pool accepted.dlcTransactions.fund.txid

theorem Sound.mono {later : Calls ι β} {contract : DlcContract}
    (sound : Sound funding pool party contract)
    (more : ∀ txid, Funding.HandedOver pool txid → Funding.HandedOver later txid) :
    Sound funding later party contract :=
  ⟨sound.drawn, sound.numbered, fun isFunded accepted carries ours =>
    more _ (sound.funded isFunded accepted carries ours)⟩

/-- Confirmations that the steps were told of are those of transactions handed over. -/
def Found (funding : Funding) (pool : Calls ι β) (steps : List WalletStep) : Prop :=
  ∀ txid confirmations, Reported steps (.getTransactionConfirmations txid) confirmations →
    funding.Ours txid → 0 < confirmations → Funding.HandedOver pool txid

/-- A check leaves a sound record. -/
theorem Sound.check {manager : Manager} {past : List WalletStep} {source target : DlcContract}
    (sound : Sound funding pool party source) (found : Found funding pool past)
    (warranted : Warranted manager past source target) :
    Sound funding pool party target := by
  cases warranted with
  | @confirm contract confirmations reported enough =>
      refine ⟨fun _ _ => nofun, sound.numbered, ?_⟩
      rintro - _ ⟨⟩ ours
      have positive : 0 < nbConfirmations := by decide
      exact found _ _ reported ours (Nat.lt_of_lt_of_le positive enough)
  | preClose built settling =>
      exact ⟨fun _ _ => nofun, sound.numbered, sound.funded⟩
  | close built reported enough =>
      exact ⟨fun _ _ => nofun, fun _ _ => nofun, fun _ _ => nofun⟩
  | settle reported enough =>
      exact ⟨fun _ _ => nofun, fun _ _ => nofun, fun _ _ => nofun⟩
  | refund reported passed settling =>
      exact ⟨fun _ _ => nofun, sound.numbered, sound.funded⟩

/-- A write of a call leaves a sound record, where the records that the call was told are
sound. -/
theorem Sound.written {deployment : Deployment β} {past : List WalletStep} {step : WalletStep}
    (acts : Acts funding deployment party past step) (found : Found funding pool past)
    (told : ∀ earlier ∈ past, ∀ contract, Tells earlier contract →
      Sound funding pool party contract) {contract : DlcContract}
    (written : (∃ offered, step.request = .createContract offered ∧
      contract = .offered offered) ∨ step.request = .updateContract contract) :
    Sound funding pool party contract := by
  have checked {manager : Manager} {source target : DlcContract} (read : ReadAs past source)
      (warranted : Warranted manager past source target) :
      Sound funding pool party target := by
    obtain ⟨earlier, taken, tells⟩ := ReadAs.tells read
    exact (told earlier taken source tells).check found warranted
  cases party with
  | router =>
      have acts : RouterActs funding deployment.wallet.manager past step := acts
      rcases written with ⟨offered, request, rfl⟩ | request
      · have writes := acts.writes (by rw [request]; rfl)
        rw [request] at writes
        cases writes with
        | offers drawn =>
            refine ⟨?_, fun _ _ => nofun, nofun⟩
            rintro - _ ⟨⟩
            exact drawn
      · have writes := acts.writes (by rw [request]; rfl)
        rw [request] at writes
        cases writes with
        | signs seen numbered =>
            refine ⟨fun _ _ => nofun, ?_, nofun⟩
            rintro - _ ⟨⟩
            exact numbered
        | fails seen => exact ⟨fun _ _ => nofun, fun _ _ => nofun, nofun⟩
        | checks read warranted => exact checked read warranted
  | browser wallet =>
      have acts : BrowserActs funding (deployment.managers wallet) past step := acts
      rcases written with ⟨offered, request, rfl⟩ | request
      · exact ⟨nofun, nofun, nofun⟩
      · have writes := acts.writes (by rw [request]; rfl)
        rw [request] at writes
        cases writes with
        | moves unfunded =>
            refine ⟨nofun, nofun, fun isFunded => ?_⟩
            rw [unfunded] at isFunded
            cases isFunded
        | checks read warranted => exact checked read warranted

end Sound

/-! ## What the router wallet holds -/

/-- The store has the signed contract with these transactions, or what became of it. -/
def HoldsSigned (store : ContractStore) (id : ContractId) (transactions : DlcTransactions) :
    Prop :=
  ∃ contract, store.find? id = some contract ∧ contract.IsSignedFor transactions

/-- A check keeps the transactions of a contract. -/
theorem isSignedFor_of_warranted {manager : Manager} {past : List WalletStep}
    {source target : DlcContract} {transactions : DlcTransactions}
    (warranted : Warranted manager past source target)
    (same : ∀ accepted, source.acceptedPart? = some accepted →
      accepted.dlcTransactions = transactions) : target.IsSignedFor transactions := by
  cases warranted with
  | confirm reported enough => exact same _ rfl
  | preClose built settling => exact same _ rfl
  | close built reported enough => trivial
  | settle reported enough => trivial
  | refund reported passed settling => exact same _ rfl

/-- What a check finds carries the accepted part whose identifier it is stored under. -/
theorem acceptedPart?_of_warranted {manager : Manager} {past : List WalletStep}
    {source target : DlcContract} (warranted : Warranted manager past source target) :
    ∃ accepted, source.acceptedPart? = some accepted ∧
      accepted.contractId = source.getId := by
  cases warranted <;> exact ⟨_, rfl, rfl⟩

/-- No step of the router wallet takes a contract back that it holds as signed. -/
theorem holdsSigned_of_acts {ι β : Type} {funding : Funding} {pool : Calls ι β}
    {manager : Manager} {past : List WalletStep} {step : WalletStep}
    (acts : RouterActs funding manager past step)
    (served : TornWorld step.before step.request step.answer step.after)
    (told : ∀ earlier ∈ past, ∀ contract, Tells earlier contract →
      Sound funding pool .router contract)
    {id : ContractId} {transactions : DlcTransactions}
    (numbered : funding.transactions id = some transactions)
    (holds : HoldsSigned step.before id transactions) :
    HoldsSigned step.after id transactions := by
  obtain ⟨contract, stored, isSigned⟩ := holds
  obtain ⟨before, request, answer, after⟩ := step
  dsimp only at served stored ⊢
  have keeps (same : after.find? id = before.find? id) : HoldsSigned after id transactions :=
    ⟨contract, same.trans stored, isSigned⟩
  -- no offer is stored under this identifier
  have apart {offered : OfferedContract} (drawn : funding.transactions offered.id = none) :
      id ≠ offered.id := by
    rintro rfl
    rw [drawn] at numbered
    cases numbered
  by_cases writes : request.isWrite = true
  · have wrote := acts.writes writes
    dsimp only at wrote
    cases wrote with
    | offers drawn =>
        rcases served.find?_create id with same | ⟨same, -⟩
        · exact keeps same
        · exact absurd same (apart drawn)
    | @signs signed seen numbers =>
        obtain ⟨earlier, taken, tells⟩ := seen.tells
        have drawn := (told earlier taken _ tells).drawn rfl _ rfl
        rcases served.find?_update id with same | ⟨rfl, found⟩ | ⟨-, same, -⟩
        · exact keeps same
        · exact ⟨.signed signed, found, Option.some.inj (numbers.symm.trans numbered)⟩
        · exact absurd same (apart drawn)
    | fails seen =>
        obtain ⟨earlier, taken, tells⟩ := seen.tells
        have drawn := (told earlier taken _ tells).drawn rfl _ rfl
        rcases served.find?_update id with same | ⟨same, -⟩ | ⟨-, same, -⟩
        · exact keeps same
        · exact absurd same (apart drawn)
        · exact absurd same (apart drawn)
    | @checks source target read warranted =>
        obtain ⟨sameId, -, stays⟩ := warranted.ids
        rcases served.find?_update id with same | ⟨rfl, found⟩ | ⟨moved, -, -⟩
        · exact keeps same
        · obtain ⟨earlier, taken, tells⟩ := ReadAs.tells read
          obtain ⟨accepted, carries, named⟩ := acceptedPart?_of_warranted warranted
          have numbers := (told earlier taken _ tells).numbered rfl accepted carries
          unfold Funding.Numbers at numbers
          rw [named, ← sameId] at numbers
          refine ⟨target, found, isSignedFor_of_warranted warranted fun other carriesOther => ?_⟩
          obtain rfl := Option.some.inj (carries.symm.trans carriesOther)
          exact Option.some.inj (numbers.symm.trans numbered)
        · exact absurd (stays.symm.trans moved) Bool.false_ne_true
  · exact keeps (congrArg (fun store => UniqueTable.find? store id)
      (served.unchanged (by simpa using writes)))

/-! ## All wallets together -/

section Consistent

variable {ι β : Type} {funding : Funding} {deployment : Deployment β}
  {calls : ι → Call β}

/-- A browser wallet has stored a contract funded so as signed. -/
def Countersigns (pool : Calls ι β) (wallet : β) (txid : Txid) : Prop :=
  ∃ step, pool.Taken step ∧ step.request.1 = .browser wallet ∧
    ∃ signed : SignedContract, Reported [step.own] (.updateContract (.signed signed)) () ∧
      signed.acceptedContract.dlcTransactions.fund.txid = txid

/-- What is known of a step of a party. -/
structure SoundStep (funding : Funding) (pool : Calls ι β) (stores : Party β → ContractStore)
    (party : Party β) (step : WalletStep) : Prop where
  told : ∀ contract, Tells step contract → Sound funding pool party contract
  found : ∀ txid confirmations before after,
    step = ⟨before, .getTransactionConfirmations txid, .ok confirmations, after⟩ →
      funding.Ours txid → 0 < confirmations → Funding.HandedOver pool txid
  verified : ∀ accepted message reply before after,
    step = ⟨before, .verifySignedContract accepted message, .ok reply, after⟩ →
      funding.Ours accepted.dlcTransactions.fund.txid →
        funding.SignedFor pool accepted.dlcTransactions.fund.txid
  sent : ∀ transaction, step.request = .sendTransaction transaction →
    funding.Ours transaction.txid → funding.SignedFor pool transaction.txid ∧
      ∃ wallet, party = .browser wallet ∧ Countersigns pool wallet transaction.txid
  held : party = .router → ∀ signed before after,
    step = ⟨before, .updateContract (.signed signed), .ok (), after⟩ →
      funding.Numbers signed.acceptedContract ∧
        HoldsSigned (stores .router) signed.acceptedContract.contractId
          signed.acceptedContract.dlcTransactions

/-- What is known of the records and the steps of all parties. -/
structure Consistent (funding : Funding) (calls : ι → Call β) (pool : Calls ι β)
    (stores : Party β → ContractStore) : Prop where
  stored : ∀ party contract, (stores party).find? contract.getId = some contract →
    Sound funding pool party contract
  taken : ∀ index, ∀ step ∈ (pool index).past,
    step.request.1 = (calls index).party ∧
      SoundStep funding pool stores (calls index).party step.own

theorem SoundStep.mono {pool later : Calls ι β} {stores stores' : Party β → ContractStore}
    {party : Party β} {step : WalletStep}
    (sound : SoundStep funding pool stores party step)
    (handedOver : ∀ txid, Funding.HandedOver pool txid → Funding.HandedOver later txid)
    (signedFor : ∀ txid, funding.SignedFor pool txid → funding.SignedFor later txid)
    (countersigns : ∀ wallet txid, Countersigns pool wallet txid →
      Countersigns later wallet txid)
    (holds : ∀ id transactions, funding.transactions id = some transactions →
      HoldsSigned (stores .router) id transactions →
        HoldsSigned (stores' .router) id transactions) :
    SoundStep funding later stores' party step where
  told := fun contract tells => (sound.told contract tells).mono handedOver
  found := fun txid confirmations before after same ours positive =>
    handedOver _ (sound.found txid confirmations before after same ours positive)
  verified := fun accepted message reply before after same ours =>
    signedFor _ (sound.verified accepted message reply before after same ours)
  sent := by
    intro transaction same ours
    obtain ⟨signs, wallet, whose, signed⟩ := sound.sent transaction same ours
    exact ⟨signedFor _ signs, wallet, whose, countersigns _ _ signed⟩
  held := fun router signed before after same =>
    (sound.held router signed before after same).imp_right fun held =>
      holds _ _ (sound.held router signed before after same).1 held

/-- The past of a call of a consistent pool. -/
theorem Consistent.past {pool : Calls ι β} {stores : Party β → ContractStore}
    (consistent : Consistent funding calls pool stores) (index : ι) :
    ∀ step ∈ (pool index).past.map Step.own,
      SoundStep funding pool stores (calls index).party step := by
  intro step member
  obtain ⟨taken, earlier, rfl⟩ := List.mem_map.mp member
  exact (consistent.taken index taken earlier).2

theorem Consistent.found {pool : Calls ι β} {stores : Party β → ContractStore}
    (consistent : Consistent funding calls pool stores) (index : ι) :
    Found funding pool ((pool index).past.map Step.own) := by
  rintro txid confirmations ⟨before, after, member⟩ ours positive
  exact (consistent.past index _ member).found txid confirmations before after rfl ours positive

section Step

variable {pool : Calls ι β} {index : ι} {step : PartiesStep β}
  {program : Program (Party β × WalletRequest) (fun request => request.2.Answer) Returned}

/-- What a step adds to what is known. -/
theorem Consistent.soundStep (consistent : Consistent funding calls pool step.before)
    (served : apart (fun _ => funding.Surroundings) step.before step.request step.answer
      step.after)
    (unforged : funding.Unforged pool index step)
    (party : step.request.1 = (calls index).party)
    (acts : Acts funding deployment (calls index).party ((pool index).past.map Step.own)
      step.own) :
    SoundStep funding pool step.after (calls index).party step.own := by
  obtain ⟨⟨served, promised⟩, others⟩ := served
  rw [← party] at acts ⊢
  constructor
  · intro contract tells
    exact consistent.stored _ _ (stored_of_tells tells served)
  · intro txid confirmations before after same ours positive
    unfold Funding.Unforged at unforged
    rw [same] at unforged
    exact unforged ours positive
  · intro accepted message reply before after same ours
    unfold Funding.Unforged at unforged
    rw [same] at unforged
    exact unforged ours
  · intro transaction same ours
    cases whose : step.request.1 with
    | router =>
        rw [whose] at acts
        have acts : RouterActs funding deployment.wallet.manager _ step.own := acts
        exact absurd ours (acts.sends transaction same)
    | browser wallet =>
        rw [whose] at acts
        have acts : BrowserActs funding (deployment.managers wallet) _ step.own := acts
        obtain ⟨signed, message, reply, ⟨before, after, verified⟩,
          ⟨before', after', stored⟩, funds⟩ := acts.sends transaction same ours
        rw [funds] at ours ⊢
        obtain ⟨earlier, member, isOwn⟩ := List.mem_map.mp stored
        refine ⟨(consistent.past index _ verified).verified _ message reply before after rfl
          ours, wallet, rfl, earlier, ⟨index, member⟩, ?_, signed, ?_, rfl⟩
        · exact (consistent.taken index earlier member).1.trans (party.symm.trans whose)
        · exact ⟨before', after', by rw [isOwn]; exact List.mem_singleton_self _⟩
  · intro router signed before after same
    have wrote : TornWorld step.own.before step.own.request step.own.answer step.own.after :=
      served
    have ends : step.own.after = step.after .router := congrArg step.after router
    rw [router] at acts
    have acts : RouterActs funding deployment.wallet.manager _ step.own := acts
    rw [same] at wrote acts ends
    rw [← ends]
    have stored : HoldsSigned after signed.acceptedContract.contractId
        signed.acceptedContract.dlcTransactions :=
      ⟨.signed signed, wrote.stored, rfl⟩
    cases acts.writes rfl with
    | signs seen numbered => exact ⟨numbered, stored⟩
    | checks read warranted => cases warranted

section Advance

variable [DecidableEq ι]

theorem handedOver_advance {txid : Txid} (handedOver : Funding.HandedOver pool txid) :
    Funding.HandedOver (pool.advance index step program) txid := by
  obtain ⟨earlier, taken, sends⟩ := handedOver
  exact ⟨earlier, (Pool.taken_advance earlier).mpr (.inl taken), sends⟩

theorem signedFor_advance (running : ¬ (pool index).Finished) {txid : Txid}
    (signedFor : funding.SignedFor pool txid) :
    funding.SignedFor (pool.advance index step program) txid := by
  obtain ⟨place, message, transactions, returned, numbered, same⟩ := signedFor
  refine ⟨place, message, transactions, ?_, numbered, same⟩
  rw [Pool.advance_finished running returned]
  exact returned

theorem countersigns_advance {wallet : β} {txid : Txid}
    (countersigns : Countersigns pool wallet txid) :
    Countersigns (pool.advance index step program) wallet txid := by
  obtain ⟨earlier, taken, stores⟩ := countersigns
  exact ⟨earlier, (Pool.taken_advance earlier).mpr (.inl taken), stores⟩

theorem Consistent.advance (consistent : Consistent funding calls pool step.before)
    (running : ¬ (pool index).Finished)
    (served : apart (fun _ => funding.Surroundings) step.before step.request step.answer
      step.after)
    (unforged : funding.Unforged pool index step)
    (party : step.request.1 = (calls index).party)
    (acts : Acts funding deployment (calls index).party ((pool index).past.map Step.own)
      step.own) :
    Consistent funding calls (pool.advance index step program) step.after := by
  have handedOver (txid : Txid) (earlier : Funding.HandedOver pool txid) :
      Funding.HandedOver (pool.advance index step program) txid := handedOver_advance earlier
  have signedFor (txid : Txid) (earlier : funding.SignedFor pool txid) :
      funding.SignedFor (pool.advance index step program) txid :=
    signedFor_advance running earlier
  have countersigns (wallet : β) (txid : Txid) (earlier : Countersigns pool wallet txid) :
      Countersigns (pool.advance index step program) wallet txid :=
    countersigns_advance earlier
  have told : ∀ earlier ∈ (pool index).past.map Step.own, ∀ contract,
      Tells earlier contract → Sound funding pool (calls index).party contract :=
    fun earlier member => (consistent.past index earlier member).told
  have holds (id : ContractId) (transactions : DlcTransactions)
      (numbered : funding.transactions id = some transactions)
      (held : HoldsSigned (step.before .router) id transactions) :
      HoldsSigned (step.after .router) id transactions := by
    by_cases whose : step.request.1 = .router
    · rw [← party, whose] at acts told
      have acts : RouterActs funding deployment.wallet.manager _ step.own := acts
      rw [← whose] at held ⊢
      exact holdsSigned_of_acts acts served.1.1 told numbered held
    · rw [served.2 .router (Ne.symm whose)]
      exact held
  constructor
  · intro other contract stored
    by_cases whose : other = step.request.1
    · subst whose
      refine Sound.mono ?_ handedOver
      rcases stored_of_written served.1.1 stored with earlier | written
      · exact consistent.stored _ contract earlier
      · rw [party]
        exact Sound.written acts (consistent.found index) told written
    · rw [served.2 other whose] at stored
      exact (consistent.stored other contract stored).mono handedOver
  · refine Pool.forall_advance ?_ ⟨party, ?_⟩
    · intro place earlier member
      obtain ⟨whose, sound⟩ := consistent.taken place earlier member
      exact ⟨whose, sound.mono handedOver signedFor countersigns holds⟩
    · exact (consistent.soundStep served unforged party acts).mono handedOver signedFor
        countersigns fun _ _ _ held => held

end Advance

end Step

section Run

variable [DecidableEq ι] {pool : Calls ι β} {stores : Party β → ContractStore}
  {trace : List (ι × PartiesStep β)}

end Run

end Consistent

/-! ## A contract from its offer to its funding -/

/-- The contract that both sides make of the offer. -/
def sampleContract : SignedContract :=
  ⟨⟨⟨.replicate 32 1, [⟨[⟨"oracle", "event"⟩], 1⟩], Wallet.staticCounterpartyNodeId⟩, [.enum],
    ⟨⟨"fund", 0⟩, ⟨"refund", 100⟩, "script"⟩, .replicate 32 2⟩, none⟩

def sampleFunding : Funding where
  transactions := fun id =>
    if id = .replicate 32 2 then some sampleContract.acceptedContract.dlcTransactions else none
  Ours := fun txid => txid = "fund"

/-- The calls that agree on a contract, and a check of the browser wallet. -/
def sampleCalls : Fin 5 → Call Unit
  | 0 => .router (.offer (.ok ⟨"event", 1, 1, 100, 0, "address", 0⟩))
  | 1 => .browser () (.acceptOffer (.ok ⟨.replicate 32 1, []⟩))
  | 2 => .router (.acceptOffer (.ok ⟨.replicate 32 1⟩))
  | 3 => .browser () (.countersignAndBroadcast (.ok ⟨.replicate 32 2⟩))
  | 4 => .browser () .periodicCheck

end Protocol

end DlcStack
