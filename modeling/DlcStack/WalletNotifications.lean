import DlcStack.ManagerReports
import DlcStack.ManagerUnhurried
import DlcStack.WalletPeriodicCheck

/-!
# Notifications

The wallet posts a contract according to the record that it finds after all
phases of a periodic check.  While each check moves a contract at most once this
is the record that the reported move left, and over any number of checks a
contract is posted once when it is confirmed and once when its CET is recorded.
-/

namespace DlcStack

namespace Wallet

open Program LinkManager

/-! ## Posts -/

/-- The step posts the contract of the event. -/
def isPostOf (url uuid : String) (step : WalletStep) : Bool :=
  match step.request with
  | .post target body => target = url && body.uuid = uuid
  | _ => false

/-- How often the contract of an event is posted. -/
def posts (url uuid : String) (steps : List WalletStep) : Nat :=
  steps.countP (isPostOf url uuid)

/-- The contract is moved from signed to confirmed. -/
def confirms : DlcContract × DlcContract → Bool
  | (.signed _, .confirmed _) => true
  | _ => false

/-- The settlement of the contract by a CET is recorded. -/
def settles : DlcContract × DlcContract → Bool
  | (.confirmed _, .preClosed _) => true
  | (.confirmed _, .closed _) => true
  | _ => false

/-- The contract is posted as funded once if it was confirmed and as closed once if
its settlement by a CET was recorded, and not otherwise. -/
def Notified (wallet : RouterWallet) (steps : List WalletStep) (id : ContractId)
    (uuid : String) : Prop :=
  posts wallet.fundedUrl uuid steps =
      (if ∃ move ∈ transitions steps, move.1.getId = id ∧ confirms move = true then 1
        else 0) ∧
    posts wallet.closedUrl uuid steps =
      if ∃ move ∈ transitions steps, move.1.getId = id ∧ settles move = true then 1
        else 0

/-- The requests that the wallet makes to learn what to post, and the posts. -/
def needsReply : WalletRequest → Bool
  | .getContract _ => true
  | .getChain _ _ => true
  | .post _ _ => true
  | request => request.isListing

/-- None of these requests fails. -/
def Answered (steps : List WalletStep) : Prop :=
  ∀ step ∈ steps, needsReply step.request = true → failed step = false

/-- The chains that attestors report, and of which event. -/
def chains (steps : List WalletStep) : List (String × String) :=
  steps.filterMap fun
    | ⟨_, .getChain _ uuid, .ok chain, _⟩ => some (uuid, chain)
    | _ => none

/-- All attestors report the same chain of an event. -/
def ChainsAgree (steps : List WalletStep) : Prop :=
  ∀ first ∈ chains steps, ∀ second ∈ chains steps,
    first.1 = second.1 → first.2 = second.2

instance (steps : List WalletStep) : Decidable (Answered steps) :=
  inferInstanceAs (Decidable (∀ step ∈ steps,
    needsReply step.request = true → failed step = false))

instance (steps : List WalletStep) : Decidable (ChainsAgree steps) :=
  inferInstanceAs (Decidable (∀ first ∈ chains steps, ∀ second ∈ chains steps,
    first.1 = second.1 → first.2 = second.2))

theorem posts_append (url uuid : String) (front back : List WalletStep) :
    posts url uuid (front ++ back) = posts url uuid front + posts url uuid back :=
  List.countP_append

theorem posts_eq_zero {url uuid : String} {steps : List WalletStep}
    (silent : ∀ step ∈ steps, step.request.isPost = false) :
    posts url uuid steps = 0 := by
  refine List.countP_eq_zero.mpr fun step member posted => ?_
  have quiet := silent step member
  unfold isPostOf at posted
  split at posted
  · rename_i request
    rw [request] at quiet
    cases quiet
  · cases posted

theorem fundedUrl_ne_closedUrl (wallet : RouterWallet) :
    wallet.fundedUrl ≠ wallet.closedUrl := by
  intro same
  have texts : "/set-status-funded" = "/post-close-dlc" := by
    simpa only [RouterWallet.fundedUrl, RouterWallet.closedUrl, String.append_right_inj]
      using same
  revert texts
  decide

section Subsets

variable {steps more : List WalletStep}

theorem Answered.subset (answered : Answered more) (included : steps ⊆ more) :
    Answered steps :=
  fun step member => answered step (included member)

theorem ChainsAgree.subset (agree : ChainsAgree more) (included : steps ⊆ more) :
    ChainsAgree steps :=
  fun first firstMem second secondMem =>
    agree first (List.filterMap_subset _ included firstMem) second
      (List.filterMap_subset _ included secondMem)

end Subsets

/-! ## The parts of the check -/

/-- The record of a reported contract passes the test. -/
def foundAs {γ : Type} (variant? : DlcContract → Option γ) (store : ContractStore)
    (report : Report) : Bool :=
  ((store.find? report.1).bind variant?).isSome

/-- What the wallet posts as funded of a contract that it finds. -/
def fundedPost? (uuid : String) :
    Except DlcError (Option DlcContract) → Option (String × Txid)
  | .ok (some (.confirmed contract)) =>
      some (uuid, contract.acceptedContract.dlcTransactions.fund.txid)
  | _ => none

/-- What the wallet posts as closed of a contract that it finds. -/
def closedPost? (uuid : String) :
    Except DlcError (Option DlcContract) → Option (String × Txid)
  | .ok (some (.preClosed contract)) => some (uuid, contract.signedCet.txid)
  | _ => none

/-- The first loop reads one contract, then the others. -/
theorem runs_readReported_cons {env : Environment ContractStore WalletRequest
      WalletRequest.Answer} {report : Report} {rest : List Report}
    {start final : ContractStore} {steps : List WalletStep}
    {lists : List (String × Txid) × List (String × Txid)}
    (run : Runs env (readReported (report :: rest)) start steps lists final) :
    ∃ answer middle confirmed closed later,
      env start (.getContract report.1) answer middle ∧
        Runs env (readReported rest) middle later (confirmed, closed) final ∧
        steps = ⟨start, .getContract report.1, answer, middle⟩ :: later ∧
        lists = ((fundedPost? report.2 answer).toList ++ confirmed,
          (closedPost? report.2 answer).toList ++ closed) := by
  obtain ⟨answer, middle, later, served, rfl, run⟩ := run
  change Runs env (readReported rest >>= _) _ _ _ _ at run
  obtain ⟨⟨confirmed, closed⟩, last, front, back, others, ended, rfl⟩ :=
    (runs_bind _ _).mp run
  have sorted : back = [] ∧ final = last ∧
      lists = ((fundedPost? report.2 answer).toList ++ confirmed,
        (closedPost? report.2 answer).toList ++ closed) := by
    rcases answer with error | _ | contract
    · obtain ⟨rfl, rfl, rfl⟩ := ended
      exact ⟨rfl, rfl, rfl⟩
    · obtain ⟨rfl, rfl, rfl⟩ := ended
      exact ⟨rfl, rfl, rfl⟩
    · cases contract <;>
        · obtain ⟨rfl, rfl, rfl⟩ := ended
          exact ⟨rfl, rfl, rfl⟩
  obtain ⟨rfl, rfl, rfl⟩ := sorted
  refine ⟨answer, middle, confirmed, closed, front, served, others, ?_, rfl⟩
  rw [List.append_nil]

theorem map_fst_fundedPost? (uuid : String) (found : Option DlcContract) :
    (fundedPost? uuid (.ok found)).toList.map Prod.fst =
      if (found.bind DlcContract.confirmed?).isSome then [uuid] else [] := by
  rcases found with _ | contract
  · rfl
  · cases contract <;> rfl

theorem map_fst_closedPost? (uuid : String) (found : Option DlcContract) :
    (closedPost? uuid (.ok found)).toList.map Prod.fst =
      if (found.bind DlcContract.preClosed?).isSome then [uuid] else [] := by
  rcases found with _ | contract
  · rfl
  · cases contract <;> rfl

/-- The wallet lists the reported contracts that it finds confirmed, and those that
it finds pre-closed. -/
theorem runs_readReported {reported : List Report} {start final : ContractStore}
    {steps : List WalletStep} {lists : List (String × Txid) × List (String × Txid)}
    (answered : Answered steps)
    (run : Runs (World False) (readReported reported) start steps lists final) :
    (∀ step ∈ steps, ∃ id, step.request = .getContract id) ∧
      lists.1.map Prod.fst =
        (reported.filter (foundAs DlcContract.confirmed? start)).map Prod.snd ∧
      lists.2.map Prod.fst =
        (reported.filter (foundAs DlcContract.preClosed? start)).map Prod.snd := by
  induction reported generalizing start steps lists final with
  | nil =>
      obtain ⟨rfl, rfl, rfl⟩ := run
      exact ⟨by simp, rfl, rfl⟩
  | cons report rest ih =>
      obtain ⟨answer, middle, confirmed, closed, later, served, others, rfl, rfl⟩ :=
        runs_readReported_cons run
      obtain ⟨rfl, replies⟩ := served
      cases answer with
      | error error => cases answered _ List.mem_cons_self rfl
      | ok found =>
          obtain rfl := replies found rfl
          obtain ⟨asks, confirmedEq, closedEq⟩ :=
            ih (answered.subset (List.subset_cons_self _ _)) others
          refine ⟨?_, ?_, ?_⟩
          · intro step member
            rcases List.mem_cons.mp member with rfl | member
            · exact ⟨report.1, rfl⟩
            · exact asks step member
          · rw [List.map_append, map_fst_fundedPost?, confirmedEq, List.filter_cons, foundAs]
            split_ifs <;> rfl
          · rw [List.map_append, map_fst_closedPost?, closedEq, List.filter_cons, foundAs]
            split_ifs <;> rfl

/-- Every attestor that answers reports its chain of the event. -/
theorem runs_getChains {attestors : List PublicKey} {uuid : String}
    {start final : ContractStore} {steps : List WalletStep} {found : List (Option String)}
    (answered : Answered steps)
    (run : Runs (World False) (attestors.mapM fun attestor => do
      let answer ← (LinkManager.ask (.getChain attestor uuid)).run
      return answer.toOption) start steps found final) :
    found.length = attestors.length ∧
      (∀ step ∈ steps, ∃ attestor, step.request = .getChain attestor uuid) ∧
      ∀ chain ∈ found, ∃ text, chain = some text ∧ (uuid, text) ∈ chains steps := by
  induction attestors generalizing start steps found final with
  | nil =>
      obtain ⟨rfl, rfl, rfl⟩ := run
      simp
  | cons attestor rest ih =>
      obtain ⟨chain, others, middle, front, back, first, second, rfl, rfl⟩ :=
        (runs_mapM_cons _ _ _).mp run
      obtain ⟨answer, _, later, served, rfl, rfl, rfl, rfl⟩ := first
      have included := List.subset_cons_self
        (⟨start, .getChain attestor uuid, answer, middle⟩ : WalletStep) back
      obtain ⟨length, asks, texts⟩ := ih (answered.subset included) second
      cases answer with
      | error error => cases answered _ List.mem_cons_self rfl
      | ok text =>
          refine ⟨by simp [length], ?_, ?_⟩
          · intro step member
            rcases List.mem_cons.mp member with rfl | member
            · exact ⟨attestor, rfl⟩
            · exact asks step member
          · intro chain member
            rcases List.mem_cons.mp member with rfl | member
            · exact ⟨text, rfl, List.mem_cons_self⟩
            · obtain ⟨other, rfl, reported⟩ := texts chain member
              exact ⟨other, rfl, List.filterMap_subset _ included reported⟩

/-- Attestors that agree give the wallet their chain. -/
theorem runs_getChainFromAttestors {wallet : RouterWallet} {attestors : List PublicKey}
    {uuid : String} {start final : ContractStore} {steps : List WalletStep}
    {result : Except String String} (someone : attestors ≠ [])
    (answered : Answered steps) (agree : ChainsAgree steps)
    (run : Runs (World False) (getChainFromAttestors wallet attestors uuid).run start
      steps result final) :
    (∃ chain, result = .ok chain) ∧
      ∀ step ∈ steps, ∃ attestor, step.request = .getChain attestor uuid := by
  obtain ⟨found, middle, front, back, first, second, rfl⟩ := (runs_run_lift_bind _ _).mp run
  obtain ⟨length, asks, texts⟩ :=
    runs_getChains (answered.subset (List.subset_append_left _ _)) first
  cases found with
  | nil => exact absurd (List.eq_nil_of_length_eq_zero length.symm) someone
  | cons chain rest =>
      obtain ⟨text, rfl, reported⟩ := texts chain (by simp)
      have same : rest.all (· = some text) = true := by
        refine List.all_eq_true.mpr fun other member => ?_
        obtain ⟨otherText, rfl, otherReported⟩ := texts other (by simp [member])
        have included := List.subset_append_left front back
        simpa using agree _ (List.filterMap_subset _ included otherReported) _
          (List.filterMap_subset _ included reported) rfl
      simp only [same, if_true] at second
      obtain ⟨rfl, rfl, rfl⟩ := second
      rw [List.append_nil]
      exact ⟨⟨_, rfl⟩, asks⟩

/-- A loop posts each of its contracts once. -/
theorem runs_postEach {wallet : RouterWallet} {attestors : List PublicKey} {url : String}
    {entries : List (String × Txid)} {start final : ContractStore}
    {steps : List WalletStep} {result : Except String Unit}
    (someone : attestors ≠ []) (answered : Answered steps) (agree : ChainsAgree steps)
    (run : Runs (World False) (postEach wallet attestors url entries).run start steps
      result final) :
    result = .ok () ∧ (∀ step ∈ steps, step.request.isWrite = false) ∧
      ∀ target uuid, posts target uuid steps =
        if target = url then (entries.map Prod.fst).count uuid else 0 := by
  induction entries generalizing start steps final with
  | nil =>
      obtain ⟨rfl, rfl, rfl⟩ := run
      simp [posts]
  | cons entry rest ih =>
      obtain ⟨uuid, txid⟩ := entry
      rcases runs_run_bind _ _ run with
        ⟨error, failed, rfl⟩ | ⟨chain, middle, front, back, first, second, rfl⟩
      · obtain ⟨⟨_, given⟩, _⟩ := runs_getChainFromAttestors someone answered agree failed
        cases given
      · have early := List.subset_append_left front back
        obtain ⟨_, asks⟩ := runs_getChainFromAttestors someone (answered.subset early)
          (agree.subset early) first
        obtain ⟨answer, after, later, _, rfl, remaining⟩ := second
        cases answer with
        | error error => cases answered _ (List.mem_append_right _ List.mem_cons_self) rfl
        | ok reply =>
            have last : later ⊆ front ++
                ⟨middle, .post url ⟨uuid, txid, chain⟩, .ok reply, after⟩ :: later :=
              fun step member => List.mem_append_right _ (List.mem_cons_of_mem _ member)
            obtain ⟨done, reads, counts⟩ := ih (answered.subset last)
              (agree.subset last) remaining
            refine ⟨done, ?_, fun target other => ?_⟩
            · intro step member
              rcases List.mem_append.mp member with member | member
              · obtain ⟨attestor, request⟩ := asks step member
                rw [request]
                rfl
              · rcases List.mem_cons.mp member with rfl | member
                · rfl
                · exact reads step member
            · have none : posts target other front = 0 := by
                refine posts_eq_zero fun step member => ?_
                obtain ⟨attestor, asked⟩ := asks step member
                rw [asked]
                rfl
              rw [posts_append, none, posts, List.countP_cons, ← posts, counts]
              by_cases same : target = url
              · subst same
                simp [isPostOf, List.count_cons]
              · simp [isPostOf, same, Ne.symm same]

/-! ## One check -/

/-- The records of the reported contracts decide what is posted: a check of the
wallet is one of the manager, and posts for every reported contract that it finds
confirmed or pre-closed. -/
theorem runs_periodicCheck {wallet : RouterWallet} {attestors : List PublicKey}
    (known : wallet.manager.oracles = some attestors) (someone : attestors ≠ [])
    {start final : ContractStore} {steps : List WalletStep} {result : Except String String}
    (answered : Answered steps) (agree : ChainsAgree steps)
    (run : Runs (World False) (periodicCheck wallet).run start steps result final) :
    ∃ front back outcome,
      Runs (World False) (LinkManager.periodicCheck wallet.manager).run start front
        outcome final ∧
      steps = front ++ back ∧ (∀ step ∈ back, step.request.isWrite = false) ∧
      ∀ uuid,
        posts wallet.fundedUrl uuid back =
          ((((outcome.toOption.getD []).filter
            (foundAs DlcContract.confirmed? final)).map Prod.snd).count uuid) ∧
        posts wallet.closedUrl uuid back =
          ((((outcome.toOption.getD []).filter
            (foundAs DlcContract.preClosed? final)).map Prod.snd).count uuid) := by
  unfold periodicCheck at run
  rw [known] at run
  obtain ⟨updated, middle, front, back, checked, remaining, rfl⟩ :=
    (runs_run_lift_bind _ _).mp run
  obtain ⟨outcome, _, front, empty, checked, returned, rfl⟩ := (runs_bind _ _).mp checked
  obtain ⟨rfl, rfl, rfl⟩ : empty = [] ∧ updated = outcome.toOption.getD [] ∧ middle = _ := by
    cases outcome <;> exact returned
  rw [List.append_nil] at answered agree ⊢
  replace answered := answered.subset (List.subset_append_right _ _)
  replace agree := agree.subset (List.subset_append_right _ _)
  obtain ⟨⟨confirmed, closed⟩, second, reading, posting, read, later, rfl⟩ :=
    (runs_run_lift_bind _ _).mp remaining
  obtain ⟨asks, confirmedEq, closedEq⟩ :=
    runs_readReported (answered.subset (List.subset_append_left _ _)) read
  replace answered := answered.subset (List.subset_append_right _ _)
  replace agree := agree.subset (List.subset_append_right _ _)
  rcases runs_run_bind _ _ later with
    ⟨error, failed, rfl⟩ | ⟨_, third, funding, closing, funded, last, rfl⟩
  · cases (runs_postEach someone answered agree failed).1
  obtain ⟨_, fundingReads, fundingPosts⟩ := runs_postEach someone
    (answered.subset (List.subset_append_left _ _))
    (agree.subset (List.subset_append_left _ _)) funded
  replace answered := answered.subset (List.subset_append_right _ _)
  replace agree := agree.subset (List.subset_append_right _ _)
  rcases runs_run_bind _ _ last with
    ⟨error, failed, rfl⟩ | ⟨_, fourth, closing, empty, settled, returned, rfl⟩
  · cases (runs_postEach someone answered agree failed).1
  obtain ⟨rfl, rfl, rfl⟩ := returned
  obtain ⟨_, closingReads, closingPosts⟩ := runs_postEach someone
    (answered.subset (List.subset_append_left _ _))
    (agree.subset (List.subset_append_left _ _)) settled
  rw [List.append_nil] at remaining ⊢
  have reads : ∀ step ∈ reading ++ (funding ++ closing), step.request.isWrite = false := by
    intro step member
    rcases List.mem_append.mp member with member | member
    · obtain ⟨id, request⟩ := asks step member
      rw [request]
      rfl
    · rcases List.mem_append.mp member with member | member
      · exact fundingReads step member
      · exact closingReads step member
  obtain rfl := linked_reads remaining.linked reads
  refine ⟨front, _, outcome, checked, rfl, reads, fun uuid => ?_⟩
  have quiet (url : String) : posts url uuid reading = 0 := by
    refine posts_eq_zero fun step member => ?_
    obtain ⟨id, request⟩ := asks step member
    rw [request]
    rfl
  have different := fundedUrl_ne_closedUrl wallet
  constructor
  · rw [posts_append, posts_append, quiet, fundingPosts, closingPosts, if_pos rfl,
      if_neg different, confirmedEq]
    simp
  · rw [posts_append, posts_append, quiet, fundingPosts, closingPosts, if_pos rfl,
      if_neg (Ne.symm different), closedEq]
    simp

/-- While the store holds what each move made of its contract, the contracts posted
are those moved into the state. -/
theorem count_foundAs {γ : Type} (variant? : DlcContract → Option γ)
    {steps : List WalletStep} {final : ContractStore} {found : List Report}
    (lists : Lists found (moves steps))
    (latest : ∀ move ∈ transitions steps, final.find? move.1.getId = some move.2)
    (uuid : String) :
    ((found.filter (foundAs variant? final)).map Prod.snd).count uuid =
      (transitions steps).countP fun move =>
        isReported move.1 move.2 && (variant? move.2).isSome &&
          decide (move.1.eventId? = some uuid) := by
  let passes (entry : ContractId × Option String) : Bool :=
    ((final.find? entry.1).bind variant?).isSome && decide (entry.2 = some uuid)
  calc ((found.filter (foundAs variant? final)).map Prod.snd).count uuid
    _ = (found.map fun report => (report.1, some report.2)).countP passes := by
      rw [List.count_eq_countP, List.countP_map, List.countP_filter, List.countP_map]
      refine List.countP_congr fun report _ => ?_
      simp [passes, foundAs, and_comm]
    _ = ((moves steps).map fun contract => (contract.getId, contract.eventId?)).countP
        passes := by rw [lists]
    _ = _ := by
      rw [List.countP_map, LinkManager.moves, List.countP_map, List.countP_filter]
      refine List.countP_congr fun move member => ?_
      simp only [passes, Function.comp_apply, latest move member, Option.bind_some,
        Bool.and_eq_true]
      tauto

/-- The conditions on the answers that a check gets. -/
structure Admitted (steps : List WalletStep) : Prop where
  answered : Answered steps
  agree : ChainsAgree steps
  unhurried : Unhurried steps

instance (steps : List WalletStep) : Decidable (Admitted steps) :=
  decidable_of_iff (Answered steps ∧ ChainsAgree steps ∧ Unhurried steps)
    ⟨fun ⟨answered, agree, unhurried⟩ => ⟨answered, agree, unhurried⟩,
      fun ⟨answered, agree, unhurried⟩ => ⟨answered, agree, unhurried⟩⟩

/-- Every watched contract has an event. -/
def Identified (store : ContractStore) : Prop :=
  ∀ contract ∈ store.rows, contract.acceptedContract?.isSome = true →
    contract.eventId? ≠ none

instance (store : ContractStore) : Decidable (Identified store) :=
  inferInstanceAs (Decidable (∀ contract ∈ store.rows,
    contract.acceptedContract?.isSome = true → contract.eventId? ≠ none))

/-- As many posts of an event were made as contracts of it were moved. -/
structure Notifies (wallet : RouterWallet) (origin : ContractStore)
    (past : List WalletStep) (store : ContractStore) : Prop where
  progress : Progress origin past store
  fundedPosts : ∀ uuid, posts wallet.fundedUrl uuid past =
    (transitions past).countP fun move =>
      confirms move && decide (move.1.eventId? = some uuid)
  closedPosts : ∀ uuid, posts wallet.closedUrl uuid past =
    (transitions past).countP fun move =>
      settles move && decide (move.1.eventId? = some uuid)

/-- The report of an unhurried check that can read its contracts. -/
theorem reported_of_answered {manager : Manager} {origin start final : ContractStore}
    {past steps : List WalletStep} {outcome : Except DlcError (List Report)}
    (identified : Identified origin) (progress : Progress origin past start)
    (answered : Answered steps)
    (run : Runs (World False) (LinkManager.periodicCheck manager).run start steps
      outcome final) :
    ∃ found, outcome = .ok found ∧ Lists found (moves steps) := by
  have report := (LinkManager.runs_periodicCheck run).report (by decide)
  cases outcome with
  | ok found => exact ⟨found, rfl, report.1⟩
  | error error =>
      exfalso
      rcases report with ⟨contract, member, missing⟩ | ⟨front, step, rfl, failing, listed⟩
      · obtain ⟨move, moveMem, rfl⟩ := List.mem_map.mp member
        have later : move ∈ transitions (past ++ steps) := by
          rw [transitions_append]
          exact List.mem_append_right _ (List.mem_of_mem_filter moveMem)
        obtain ⟨first, found, watched, event⟩ := (progress.periodicCheck run).moved later
        exact identified first (UniqueTable.find?_eq_some_iff.mp found).1 watched
          (event.trans missing)
      · have needed : needsReply step.request = true := by
          cases request : step.request <;> first
            | rfl
            | (rw [request] at listed; cases listed)
        rw [answered step (by simp) needed] at failing
        cases failing

/-- A periodic check of the wallet posts the contracts that it moves. -/
theorem Notifies.periodicCheck {wallet : RouterWallet}
    (someone : wallet.manager.oracles ≠ some []) {origin start final : ContractStore}
    {past steps : List WalletStep} {result : Except String String}
    (identified : Identified origin) (notifies : Notifies wallet origin past start)
    (admitted : Admitted steps)
    (run : Runs (World False) (periodicCheck wallet).run start steps result final) :
    Notifies wallet origin (past ++ steps) final := by
  obtain ⟨answered, agree, unhurried⟩ := admitted
  cases known : wallet.manager.oracles with
  | none =>
      unfold Wallet.periodicCheck at run
      rw [known] at run
      obtain ⟨rfl, rfl, rfl⟩ := run
      simpa using notifies
  | some attestors =>
      obtain ⟨front, back, outcome, checked, rfl, reads, posted⟩ :=
        runs_periodicCheck known (fun none => someone (none ▸ known)) answered agree run
      have early := List.subset_append_left front back
      obtain ⟨once, direct⟩ := (unhurried.subset early).moves_once checked
      obtain ⟨found, rfl, lists⟩ := reported_of_answered identified notifies.progress
        (answered.subset early) checked
      have own := (progress_refl start).periodicCheck checked
      rw [List.nil_append] at own
      have latest : ∀ move ∈ transitions front,
          final.find? move.1.getId = some move.2 := by
        intro move member
        obtain ⟨first, last, split, others⟩ := split_of_nodup once member
        exact own.latest first move.1 move.2 last split others
      have silent (url uuid : String) : posts url uuid front = 0 :=
        posts_eq_zero ((LinkManager.runs_periodicCheck checked).silent (by decide))
      have moved : transitions (past ++ (front ++ back)) =
          transitions past ++ transitions front := by
        rw [transitions_append, transitions_append, transitions_of_reads reads,
          List.append_nil]
      refine ⟨?_, fun uuid => ?_, fun uuid => ?_⟩
      · rw [← List.append_assoc]
        exact (notifies.progress.periodicCheck checked).read reads
      · rw [posts_append, posts_append, silent, (posted uuid).1, notifies.fundedPosts,
          moved, List.countP_append, Nat.zero_add]
        refine congrArg _ ((count_foundAs _ lists latest uuid).trans ?_)
        refine List.countP_congr fun move _ => ?_
        obtain ⟨source, target⟩ := move
        cases source <;> cases target <;>
          simp [confirms, isReported, DlcContract.confirmed?]
      · rw [posts_append, posts_append, silent, (posted uuid).2, notifies.closedPosts,
          moved, List.countP_append, Nat.zero_add]
        refine congrArg _ ((count_foundAs _ lists latest uuid).trans ?_)
        refine List.countP_congr fun move member => ?_
        obtain ⟨source, target⟩ := move
        cases source <;> cases target <;> first
          | exact absurd member (direct _ _)
          | simp [settles, isReported, DlcContract.preClosed?]

/-! ## Over all checks -/

/-- Elements of which no two pass a test together are counted at most once. -/
theorem countP_eq_ite {α : Type} {test : α → Bool} {list : List α}
    (apart : list.Pairwise fun first second => ¬ (test first = true ∧ test second = true)) :
    list.countP test = if ∃ element ∈ list, test element = true then 1 else 0 := by
  induction list with
  | nil => simp
  | cons head tail ih =>
      rw [List.pairwise_cons] at apart
      rw [List.countP_cons, ih apart.2]
      by_cases passed : test head = true
      · have alone : ¬ ∃ element ∈ tail, test element = true := by
          rintro ⟨element, member, also⟩
          exact apart.1 element member ⟨passed, also⟩
        simp [passed, alone]
      · simp [passed]

/-- Moves of one contract that start from one stage happen at most once. -/
theorem count_moves {origin store : ContractStore} {past : List WalletStep}
    (progress : Progress origin past store) {contract : DlcContract} {uuid : String}
    (stored : origin.find? contract.getId = some contract)
    (event : contract.eventId? = some uuid)
    (alone : ∀ other ∈ origin.rows, other.acceptedContract?.isSome = true →
      other.eventId? = some uuid → other = contract)
    {test : DlcContract × DlcContract → Bool} {level : Nat}
    (starts : ∀ move, test move = true → stage move.1 = level) :
    ((transitions past).countP fun move =>
        test move && decide (move.1.eventId? = some uuid)) =
      if ∃ move ∈ transitions past, move.1.getId = contract.getId ∧ test move = true
        then 1 else 0 := by
  have same : ∀ move ∈ transitions past,
      (move.1.eventId? = some uuid ↔ move.1.getId = contract.getId) := by
    intro move member
    obtain ⟨first, found, watched, sameEvent⟩ := progress.moved member
    obtain ⟨row, id⟩ := UniqueTable.find?_eq_some_iff.mp found
    constructor
    · intro given
      rw [← id, alone first row watched (sameEvent.trans given)]
    · intro sameId
      rw [sameId, stored] at found
      obtain rfl := Option.some.inj found
      exact sameEvent.symm.trans event
  have counted : ((transitions past).countP fun move =>
      test move && decide (move.1.eventId? = some uuid)) =
      (transitions past).countP fun move =>
        decide (move.1.getId = contract.getId ∧ test move = true) := by
    refine List.countP_congr fun move member => ?_
    simp [same move member, and_comm]
  refine counted.trans ((countP_eq_ite ?_).trans (if_congr (by simp) rfl rfl))
  refine progress.onward.imp fun {first second} later => ?_
  rintro ⟨firstPassed, secondPassed⟩
  obtain ⟨firstId, firstTest⟩ := of_decide_eq_true firstPassed
  obtain ⟨secondId, secondTest⟩ := of_decide_eq_true secondPassed
  have ahead := later (firstId.trans secondId.symm)
  rw [starts first firstTest, starts second secondTest] at ahead
  exact absurd ahead (Nat.lt_irrefl _)

/-- Over any number of periodic checks that are not hurried, every contract is posted
once for its confirmation and once for its settlement. -/
theorem periodicChecks_notified {wallet : RouterWallet}
    (someone : wallet.manager.oracles ≠ some []) {start final : ContractStore}
    {sessions : List (Session Unit ContractStore WalletRequest WalletRequest.Answer
      (Except String String))}
    (identified : Identified start)
    (admitted : ∀ session ∈ sessions, Admitted session.steps)
    (runs : RunsEach (World False) (fun _ : Unit => (periodicCheck wallet).run) start
      sessions final)
    {contract : DlcContract} {uuid : String} (stored : contract ∈ start.rows)
    (event : contract.eventId? = some uuid)
    (alone : ∀ other ∈ start.rows, other.acceptedContract?.isSome = true →
      other.eventId? = some uuid → other = contract) :
    Notified wallet (sessions.flatMap (·.steps)) contract.getId uuid := by
  have initially : Notifies wallet start [] start :=
    ⟨progress_refl start, fun _ => rfl, fun _ => rfl⟩
  have kept := runs.history_invariant (Notifies wallet start)
    (fun session => Admitted session.steps)
    (fun _ _ _ _ allowed holds run => holds.periodicCheck someone identified allowed run)
    admitted initially
  rw [List.nil_append] at kept
  have found := UniqueTable.mem_rows_iff.mp stored
  constructor
  · rw [kept.fundedPosts]
    refine count_moves kept.progress found event alone fun move confirmed =>
      (?_ : stage move.1 = 0)
    obtain ⟨source, target⟩ := move
    cases source <;> first
      | rfl
      | cases confirmed
  · rw [kept.closedPosts]
    refine count_moves kept.progress found event alone fun move settled =>
      (?_ : stage move.1 = 1)
    obtain ⟨source, target⟩ := move
    cases source <;> first
      | rfl
      | cases settled

def sampleWallet : RouterWallet :=
  ⟨sampleManager, "http://interface", fun text => "\"" ++ text ++ "\""⟩

def sampleContract : DlcContract :=
  .signed (sampleSigned (.replicate 32 1) (.replicate 32 2))

/-- Two checks of a signed contract, under the answers of these others. -/
def sampleChecks (first second : Others) :
    List (Session Unit ContractStore WalletRequest WalletRequest.Answer
      (Except String String)) :=
  let early := eval (serve first) (periodicCheck sampleWallet).run
    (sampleStore sampleContract)
  let late := eval (serve second) (periodicCheck sampleWallet).run early.2.2
  [⟨(), early.1, early.2.1⟩, ⟨(), late.1, late.2.1⟩]

theorem runs_sampleChecks (first second : Others) :
    ∃ final, RunsEach (World False) (fun _ : Unit => (periodicCheck sampleWallet).run)
      (sampleStore sampleContract) (sampleChecks first second) final :=
  ⟨_, _, runs_eval (serve first) (world_serve False _) _ _,
    _, runs_eval (serve second) (world_serve False _) _ _, rfl⟩

/-- Others for which the fund transaction is final, and the CET is not yet sent. -/
def fundedOthers (attested : Bool) : Others :=
  sampleOthers (fun txid => if txid = "fund" then 6 else 0) attested 0 fun _ => false

/-- All steps of the two checks. -/
def sampleSteps (first second : Others) : List WalletStep :=
  (sampleChecks first second).flatMap (·.steps)

theorem periodicChecks_notified_sampleChecks :
    Notified sampleWallet (sampleSteps (fundedOthers false) (fundedOthers true))
      (.replicate 32 2) "event" := by
  obtain ⟨final, runs⟩ := runs_sampleChecks (fundedOthers false) (fundedOthers true)
  have notified : Notified sampleWallet _ sampleContract.getId "event" :=
    periodicChecks_notified (by decide) (by decide) (by decide) runs (by decide) rfl
      (by decide)
  exact notified

/-- A contract that is confirmed and settled in one check is posted twice as closed and
never as funded. -/
theorem periodicChecks_not_notified :
    ¬ ∀ (wallet : RouterWallet) (start final : ContractStore)
      (sessions : List (Session Unit ContractStore WalletRequest WalletRequest.Answer
        (Except String String))),
      RunsEach (World False) (fun _ : Unit => (periodicCheck wallet).run) start sessions
        final →
      (∀ session ∈ sessions, ∀ step ∈ session.steps, failed step = false) →
      ∀ contract ∈ start.rows, ∀ uuid, contract.eventId? = some uuid →
        Notified wallet (sessions.flatMap (·.steps)) contract.getId uuid := by
  intro always
  obtain ⟨final, runs⟩ := runs_sampleChecks (fundedOthers true) (fundedOthers true)
  have notified := (always _ _ _ _ runs (by decide) sampleContract (by decide) "event"
    rfl).1
  have unposted : posts sampleWallet.fundedUrl "event"
      (sampleSteps (fundedOthers true) (fundedOthers true)) = 0 := by decide
  have confirmed : ∃ move ∈ transitions (sampleSteps (fundedOthers true)
      (fundedOthers true)), move.1.getId = sampleContract.getId ∧ confirms move = true := by
    decide
  exact absurd (unposted.symm.trans (notified.trans (if_pos confirmed))) (by decide)

end Wallet

end DlcStack
